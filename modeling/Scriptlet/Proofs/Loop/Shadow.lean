import Scriptlet.Proofs.Limits.Enough
import Scriptlet.Proofs.Loop.Splice
import Scriptlet.Proofs.Reuse.Mirror

/-!
# Runs with more frames in between

From contexts that are spliced, a piece of a script goes the same way: it has the same value, or fails
with the same fault at the same place, ends in contexts that are spliced, and the same happens on the
way (`Shadows`). The one thing that can be told is the else-chain of the frame right behind the frames
that were put in, before two statements have been counted there, and only by a call that asks for it
(`run_shadows`). A body that is no such call goes alike at once (`runNode_shadows_first`).
-/

namespace Scriptlet

variable {σ α β γ : Type} [RandomSource γ]

/-- Evaluations end alike: with the same value, or with the same fault at the same place. Where
evaluations are placed, every error has a place. -/
inductive SameEnd (placed : Prop) : Except RuntimeError α → Except RuntimeError α → Prop
  | ok (value : α) : SameEnd placed (.ok value) (.ok value)
  | error {e e' : RuntimeError} :
    e.fault = e'.fault →
    e.location = e'.location →
    (placed → e.location.isSome) →
    SameEnd placed (.error e) (.error e')

/-- Less may be asked of the errors in which both end. -/
lemma SameEnd.mono {placed placed' : Prop} {left right : Except RuntimeError α}
    (h : SameEnd placed left right) (imp : placed' → placed) : SameEnd placed' left right := by
  cases h with
  | ok value => exact .ok value
  | error fault location has => exact .error fault location fun is => has (imp is)

/-- Errors end up in the same place if they have one, or if the calls that they leave do. -/
lemma SameEnd.locate {placed : Prop} {e e' : RuntimeError} {here here' : Location}
    {calls calls' : List ActiveCall}
    (h : SameEnd placed (.error e : Except RuntimeError α) (.error e')) (same : placed ∨ here = here') :
    SameEnd True (.error (e.locate here calls) : Except RuntimeError β)
      (.error (e'.locate here' calls')) := by
  cases h with
  | error fault location has =>
    rw [RuntimeError.locate, RuntimeError.locate, ← location]
    cases found : e.location with
    | some place => exact .error fault location fun _ => by rw [found]; rfl
    | none =>
      rcases same with is | rfl
      · have placed := has is
        rw [found] at placed
        cases placed
      · exact .error fault rfl fun _ => rfl

/-- The contexts are spliced, and the same has happened in both since so much had happened in each. -/
structure State.Spliced (p : Splice) (q r : Past) (counted above : Nat) (s t : State (Recorded σ)) :
    Prop where
  context : s.context.Spliced p counted above t.context
  host : s.host.host = t.host.host
  since : ∃ news, s.past = q ++ news ∧ t.past = r ++ news

/-- Nothing has happened since now. -/
lemma State.since_now (s t : State (Recorded σ)) :
    ∃ news, s.past = s.past ++ news ∧ t.past = t.past ++ news :=
  ⟨⟨[], 0⟩, (Past.append_nil _).symm, (Past.append_nil _).symm⟩

/-- A call that asks for it can tell no difference between the chains around it. -/
def Settles (counted above : Nat) : Prop :=
  2 ≤ above ∨ 1 ≤ above ∧ 2 ≤ counted

/-- What is settled is so one call deeper. -/
lemma Settles.succ {counted above : Nat} (h : Settles counted above) : Settles counted (above + 1) :=
  h.imp (Nat.le_succ_of_le ·) (And.imp_left (Nat.le_succ_of_le ·))

namespace State.Spliced

variable {p : Splice} {q r : Past} {counted above : Nat} {s t : State (Recorded σ)}

/-- Fewer marks may be asked for. -/
lemma mono {m : Nat} (h : s.Spliced p q r counted above t) (le : m ≤ counted) :
    s.Spliced p q r m above t :=
  ⟨⟨h.context.scopes.mono le, h.context.definitions, h.context.flow⟩, h.host, h.since⟩

/-- Both are stopped alike. -/
lemma isStopped (h : s.Spliced p q r counted above t) : s.context.isStopped = t.context.isStopped := by
  rw [Context.isStopped, Context.isStopped, h.context.flow]

/-- Both are interrupted alike. -/
lemma isInterrupted (h : s.Spliced p q r counted above t) :
    s.context.isInterrupted = t.context.isInterrupted :=
  h.context.looksLike.isInterrupted

/-- Both may enter calls of the same kind. -/
lemma push (h : s.Spliced p q r counted above t) (call call' : ActiveCall) (owns : Bool) :
    (Evaluation.withScopes (·.push (.ofCall call owns)) s).Spliced p q r counted (above + 1)
      (Evaluation.withScopes (·.push (.ofCall call' owns)) t) where
  context := ⟨h.context.scopes.push call call' owns, h.context.definitions, h.context.flow⟩
  host := h.host
  since := h.since

/-- Both may leave their calls. -/
lemma pop (h : s.Spliced p q r counted (above + 1) t) (behind : 1 ≤ above ∨ p.extra = 0) :
    (Evaluation.withScopes (·.pop) s).Spliced p q r counted above
      (Evaluation.withScopes (·.pop) t) where
  context := ⟨h.context.scopes.pop behind, h.context.definitions, h.context.flow⟩
  host := h.host
  since := h.since

end State.Spliced

namespace Evaluation

/-- From states that are spliced, the evaluations end alike, in states that are. -/
def Shadows (p : Splice) (q r : Past) (counted above : Nat) (placed : Prop) :
    Relation (Recorded σ) (Recorded σ) := fun _ x y =>
  ∀ s t, s.Spliced p q r counted above t →
    Option.Rel (fun ended ended' => SameEnd placed ended.1 ended'.1 ∧
      ended.2.Spliced p q r counted above ended'.2) (x s) (y t)

namespace Shadows

variable {p : Splice} {q r : Past} {counted above : Nat} {placed : Prop}

/-- What shadows in both parts shadows. -/
lemma bind {x y : Evaluation (Recorded σ) α} {f g : α → Evaluation (Recorded σ) β}
    (hx : Shadows p q r counted above placed x y)
    (hf : ∀ value, Shadows p q r counted above placed (f value) (g value)) :
    Shadows p q r counted above placed (x >>= f) (y >>= g) := by
  intro s t spliced
  show Option.Rel _ (andThen x f s) (andThen y g t)
  rw [andThen, andThen]
  rcases ends_cases (hx s t spliced) with
    ⟨left, right⟩ | ⟨⟨_, s'⟩, ⟨_, t'⟩, left, right, same, spliced⟩
  · rw [left, right]
    exact .none
  · rw [left, right]
    cases same with
    | ok value => exact hf value s' t' spliced
    | error fault location has => exact .some ⟨.error fault location has, spliced⟩

/-- A value shadows itself. -/
lemma pure (value : α) :
    Shadows (σ := σ) p q r counted above placed (Pure.pure value) (Pure.pure value) :=
  fun _ _ spliced => .some ⟨.ok value, spliced⟩

/-- An error shadows itself, if it has a place where one is asked for. -/
lemma raise (error : RuntimeError) (has : placed → error.location.isSome) :
    Shadows (σ := σ) (α := α) p q r counted above placed (Evaluation.raise error)
      (Evaluation.raise error) :=
  fun _ _ spliced => .some ⟨.error rfl rfl has, spliced⟩

/-- No evaluation can tell the contexts apart. -/
lemma inspect {f g : Context → Evaluation (Recorded σ) β}
    (hf : ∀ c c', c.Spliced p counted above c' →
      Shadows p q r counted above placed (f c) (g c')) :
    Shadows p q r counted above placed (Evaluation.context >>= f) (Evaluation.context >>= g) :=
  fun s t spliced => hf s.context t.context spliced.context s t spliced

/-- Shadowing is handed on through the parts of an evaluation. -/
lemma placing : Relation.Placing (Shadows (σ := σ) p q r counted above placed) where
  pure := pure
  bind := bind
  context hf := inspect fun c c' spliced => hf c c' spliced.looksLike
  failAt _ _ _ _ spliced := .some ⟨.error rfl rfl fun _ => rfl, spliced⟩

/-- There is no ceiling for the calls in progress. -/
lemma serving {ceiling : Nat} (none : ceiling = 0) :
    Relation.Serving (Shadows (σ := σ) p q r counted above placed) ceiling where
  toPlacing := placing
  calls hf := inspect fun c c' spliced => hf c c' spliced.looksLike (.inl none)

/-- Less may be asked of the errors in which both end. -/
lemma mono {placed' : Prop} {x y : Evaluation (Recorded σ) α}
    (h : Shadows p q r counted above placed x y) (imp : placed' → placed) :
    Shadows p q r counted above placed' x y := by
  intro s t spliced
  rcases ends_cases (h s t spliced) with ⟨left, right⟩ | ⟨_, _, left, right, same, spliced⟩
  · rw [left, right]
    exact .none
  · rw [left, right]
    exact .some ⟨same.mono imp, spliced⟩

/-- A change that keeps contexts spliced and takes no steps. -/
lemma modify {change : Context → Context}
    (keeps : ∀ {c c' : Context}, c.Spliced p counted above c' →
      (change c).Spliced p counted above (change c'))
    (steps : ∀ c : Context, (change c).steps = c.steps) :
    Shadows (σ := σ) p q r counted above placed (Evaluation.modify change)
      (Evaluation.modify change) := by
  intro s t spliced
  refine .some ⟨.ok (), keeps spliced.context, spliced.host, ?_⟩
  rw [State.past_modify steps, State.past_modify steps]
  exact spliced.since

/-- In frames of their own, evaluations have every error placed. -/
lemma inFrame {x y : Evaluation (Recorded σ) α} (call : ActiveCall) (owns : Bool)
    (h : Shadows p q r counted (above + 1) False x y) :
    Shadows p q r counted above placed (Evaluation.inFrame (.ofCall call owns) x)
      (Evaluation.inFrame (.ofCall call owns) y) := by
  intro s t spliced
  have behind := spliced.context.scopes.behind
  rw [Evaluation.inFrame, Evaluation.inFrame]
  rcases ends_cases (h _ _ (spliced.push call call owns)) with
    ⟨left, right⟩ | ⟨⟨_, s'⟩, ⟨_, t'⟩, left, right, same, spliced⟩
  · rw [left, right]
    exact .none
  · rw [left, right]
    cases same with
    | ok value => exact .some ⟨.ok value, spliced.pop behind⟩
    | error fault location has =>
      have same : SameEnd False (.error _ : Except RuntimeError α) (.error _) :=
        .error fault location has
      exact .some ⟨(same.locate (.inr rfl)).mono fun _ => trivial, spliced.pop behind⟩

variable {it : Interpreter σ}

/-- Both are told of the same. -/
lemma notify (unwatched : it.Unwatched) (event : Event) :
    Shadows p q r counted above placed (Evaluation.notify it.recorded.observe event)
      (Evaluation.notify it.recorded.observe event) := by
  intro s t spliced
  refine .some ⟨.ok (), spliced.context, ?_, ?_⟩
  · show it.observe event s.context s.host.host = it.observe event t.context t.host.host
    rw [unwatched, unwatched, spliced.host]
  · exact State.since_append spliced.since (State.past_note it event s) (State.past_note it event t)

/-- In the frame of a call errors need no place yet. -/
lemma framing (unwatched : it.Unwatched) :
    Relation.Framing (Shadows p q r counted above True) (Shadows p q r counted above False) it.recorded
      it.recorded where
  inside := placing
  fail fault := raise (.ofFault fault) nofun
  enter h := h.mono nofun
  notify := notify unwatched
  passage passage := modify (fun spliced => spliced.passage passage) passage.steps

/-- Actions follow themselves that cannot tell the contexts apart and pass on every error of what
they run. -/
lemma ofAction {kind : CallKind} {name : String} {allowed : Update → Prop} {runs : Prop}
    {body : Evaluation (Recorded σ) Unit} {arguments : Evaluation (Recorded σ) (List String)}
    (behind : 1 ≤ above ∨ p.extra = 0) (settled : AsksForChain kind name → Settles counted above)
    (bodies : Shadows p q r counted (above + 1) False body body)
    (rereads : Shadows p q r counted (above + 1) False arguments arguments) (rounds : Nat)
    {action : Action σ α} (h : action.Confined (Context.SameFor kind name) allowed runs) {n : Nat}
    {may : Update → Prop} (passes : Action.CutShort may n action action) :
    Shadows p q r counted (above + 1) False (Evaluation.ofAction body arguments rounds action.recorded)
      (Evaluation.ofAction body arguments rounds action.recorded) := by
  induction h generalizing n with
  | done answer => exact pure answer
  | raise error => exact raise error nofun
  | inspect same _ ih =>
    cases passes with
    | inspect passes =>
      refine inspect fun c c' spliced => ?_
      have chain : AsksForChain kind name → c.scopes.parent.chainOpen = c'.scopes.parent.chainOpen := by
        intro asks
        refine spliced.scopes.chainOpen_parent ?_
        rcases settled asks with inside | ⟨inside, behind⟩
        · exact .inl (Nat.succ_le_succ inside)
        · exact .inr ⟨Nat.succ_le_succ inside, behind⟩
      dsimp only
      rw [same c c' ⟨spliced.looksLike, chain⟩]
      exact ih c' (passes c')
  | @update change _ _ _ ih =>
    cases passes with
    | update _ passes =>
      have around : 2 ≤ above + 1 ∨ p.extra = 0 := behind.imp_left Nat.succ_le_succ
      exact bind (modify (fun spliced => spliced.update around change) fun c => c.steps_update change)
        fun _ => ih passes
  | @readHost rest _ ih =>
    cases passes with
    | readHost passes =>
      intro s t spliced
      have read := ih t.host.host (passes _) s t spliced
      show Option.Rel _ (Evaluation.ofAction body arguments rounds (rest s.host.host).recorded s) _
      rw [spliced.host]
      exact read
  | writeHost host _ ih =>
    cases passes with
    | writeHost _ passes =>
      intro s t spliced
      exact ih passes ⟨s.context, { s.host with host := host }⟩
        ⟨t.context, { t.host with host := host }⟩ ⟨spliced.context, rfl, spliced.since⟩
  | @runBody rest _ _ ih =>
    cases passes with
    | runBody passed _ passes =>
      show Shadows _ _ _ _ _ _
        (Evaluation.attempt body >>= fun result =>
          Evaluation.ofAction body arguments rounds (rest (error? result)).recorded)
        (Evaluation.attempt body >>= fun result =>
          Evaluation.ofAction body arguments rounds (rest (error? result)).recorded)
      -- an error of the body is passed on, so there is more to do after a good end only
      rw [attempt_bind fun error => by rw [error?, passed]; rfl]
      exact bind bodies fun _ => ih none passes
  | @rereadArgs rest _ _ ih =>
    cases passes with
    | rereadArgs passed _ passes =>
      show Shadows _ _ _ _ _ _
        (Evaluation.attempt arguments >>= fun result =>
          Evaluation.ofAction body arguments rounds (rest result).recorded)
        (Evaluation.attempt arguments >>= fun result =>
          Evaluation.ofAction body arguments rounds (rest result).recorded)
      rw [attempt_bind fun error => by rw [passed]; rfl]
      exact bind rereads fun args => ih (.ok args) (passes args)
  | rounds _ ih =>
    cases passes with
    | rounds passes => exact ih rounds (passes rounds rounds (Nat.le_refl _))
  | exhausted => exact fun _ _ _ => .none

/-- A statement is counted alike. -/
lemma countStatement :
    Shadows (σ := σ) p q r counted above placed Interpreter.countStatement
      Interpreter.countStatement := by
  refine modify (fun spliced => ?_) fun _ => rfl
  refine ⟨spliced.scopes.countStatement.mono ?_, spliced.definitions, spliced.flow⟩
  split
  · exact Nat.le_succ _
  · exact Nat.le_refl _

/-- What comes behind a statement that is counted right behind the frames that were put in finds the
chain there settled further. -/
lemma behind_count {x y : Evaluation (Recorded σ) α} (h : Shadows p q r (counted + 1) 1 placed x y) :
    Shadows p q r counted 1 placed (Interpreter.countStatement >>= fun _ => x)
      (Interpreter.countStatement >>= fun _ => y) := by
  intro s t spliced
  have counts : (withScopes (·.modifyTop Frame.countStatement) s).Spliced p q r (counted + 1) 1
      (withScopes (·.modifyTop Frame.countStatement) t) :=
    ⟨⟨spliced.context.scopes.countStatement, spliced.context.definitions, spliced.context.flow⟩,
      spliced.host, spliced.since⟩
  rcases ends_cases (h _ _ counts) with ⟨left, right⟩ | ⟨_, _, left, right, same, spliced⟩
  · show Option.Rel _ (x (withScopes _ s)) (y (withScopes _ t))
    rw [left, right]
    exact .none
  · show Option.Rel _ (x (withScopes _ s)) (y (withScopes _ t))
    rw [left, right]
    exact .some ⟨same, spliced.mono (Nat.le_succ _)⟩

/-- A step is taken alike where there is no ceiling for them. -/
lemma step (unwatched : it.Unwatched) (none : it.limits.maxSteps = 0) (location : Location) :
    Shadows p q r counted above placed (it.recorded.step location) (it.recorded.step location) := by
  intro s t spliced
  rw [it.step_recorded, it.step_recorded]
  have taken : (it.takeStep location s).Spliced p q r counted above (it.takeStep location t) := by
    refine ⟨⟨spliced.context.scopes, spliced.context.definitions, spliced.context.flow⟩, ?_, ?_⟩
    · show it.observe _ _ _ = it.observe _ _ _
      rw [unwatched, unwatched]
      exact spliced.host
    · exact State.since_append spliced.since (State.past_takeStep ..) (State.past_takeStep ..)
  simp only [none, Nat.lt_irrefl, false_and, if_false]
  exact .some ⟨.ok (), taken⟩

end Shadows

end Evaluation

open Evaluation

namespace Interpreter

variable {it : Interpreter σ} {random : Slot σ γ} {streams : Slot σ Streams} {p : Splice}
  {q r : Past} {counted above : Nat}

/-- Calls are served alike, those that ask for the chain around them only where it is settled. -/
lemma serve_shadows (uses : it.Uses (Standard random streams)) (unwatched : it.Unwatched)
    (shallow : it.limits.maxCallDepth = 0) {run : Node Token → Evaluation (Recorded σ) Unit}
    {expand : Expand (Recorded σ)}
    (runs : ∀ node, Shadows p q r counted (above + 1) True (run node) (run node))
    (expands : ∀ origin name args,
      Shadows p q r counted (above + 1) True (expand origin name args) (expand origin name args))
    (rounds : Nat) {site : CallSite} {name : String}
    (settled : AsksForChain site.kind name → Settles counted above) (args : List String) :
    Shadows p q r counted above True (it.recorded.serve run expand rounds site name args)
      (it.recorded.serve run expand rounds site name args) := by
  have framing : Relation.Framing (Shadows p q r counted (above + 1) True)
    (Shadows p q r counted (above + 1) False) it.recorded it.recorded := Shadows.framing unwatched
  intro s t spliced
  have behind := spliced.context.scopes.behind
  refine serve_lockstep (Shadows.serving shallow) rfl (fun definition => ?_) s t spliced
  refine Shadows.inFrame _ _ ?_
  refine dispatch_lockstep framing runs definition (handlers_rel uses fun handler standard => ?_)
  have bodies := runBody_lockstep framing runs site name
  have rereads := Word.arguments_lockstep Shadows.placing.toLockstep expands site.args
  let call : Call := ⟨⟨name, site.kind, args, site.location⟩, site.node, site.body⟩
  exact handle_lockstep framing (Shadows.ofAction behind settled bodies (rereads.mono nofun) rounds
    (standard.confined call) ((standard.plain call).orderly 0))

/-- Statements go alike wherever the chain of their frame is settled, and expansions do wherever that
of the next frame is. -/
lemma run_shadows (uses : it.Uses (Standard random streams)) (unwatched : it.Unwatched)
    (endless : it.limits.maxSteps = 0) (shallow : it.limits.maxCallDepth = 0) (fuel : Nat) :
    (∀ counted above, Settles counted above → ∀ node, Shadows p q r counted above True
      (it.recorded.runNode fuel node) (it.recorded.runNode fuel node)) ∧
    ∀ counted above, Settles counted (above + 1) → ∀ origin name args,
      Shadows p q r counted above True (it.recorded.expand fuel origin name args)
        (it.recorded.expand fuel origin name args) := by
  induction fuel with
  | zero => exact ⟨fun _ _ _ _ _ _ _ => .none, fun _ _ _ _ _ _ _ _ _ => .none⟩
  | succ fuel ih =>
    obtain ⟨runs, expands⟩ := ih
    have serves : ∀ counted above, Settles counted (above + 1) → ∀ {site : CallSite} {name},
        (AsksForChain site.kind name → Settles counted above) → ∀ args,
        Shadows p q r counted above True
          (it.recorded.serve (it.recorded.runNode fuel) (it.recorded.expand fuel) fuel site name args)
          (it.recorded.serve (it.recorded.runNode fuel) (it.recorded.expand fuel) fuel site name args) :=
      fun counted above settled _ _ asks => serve_shadows uses unwatched shallow
        (runs counted (above + 1) settled) (expands counted (above + 1) settled.succ) fuel asks
    refine ⟨fun counted above settled node => ?_, fun counted above settled origin name args => ?_⟩
    · rw [runNode]
      refine (Shadows.step unwatched endless _).bind fun _ => Shadows.countStatement.bind fun _ => ?_
      exact perform_lockstep Shadows.placing (runs counted above settled)
        (expands counted above settled.succ) fun site name args _ =>
          serves counted above settled.succ (fun _ => settled) args
    · rw [Interpreter.expand]
      refine (Shadows.step unwatched endless _).bind fun _ => ?_
      refine call_lockstep Shadows.placing.toLockstep (expands counted above settled) fun name args => ?_
      exact serves counted above settled (fun asks => CallKind.noConfusion asks.1) args

/-- Right behind the frames that were put in, statements go alike behind a statement that was counted
there: they count as the second. -/
lemma runNode_shadows_second (uses : it.Uses (Standard random streams)) (unwatched : it.Unwatched)
    (endless : it.limits.maxSteps = 0) (shallow : it.limits.maxCallDepth = 0) (fuel : Nat)
    (node : Node Token) :
    Shadows p q r 1 1 True (it.recorded.runNode fuel node) (it.recorded.runNode fuel node) := by
  cases fuel with
  | zero => exact fun _ _ _ => .none
  | succ fuel =>
    obtain ⟨runs, expands⟩ := run_shadows (p := p) (q := q) (r := r) uses unwatched endless shallow fuel
    have settled : Settles 2 1 := .inr ⟨Nat.le_refl 1, Nat.le_refl 2⟩
    rw [runNode]
    refine (Shadows.step unwatched endless _).bind fun _ => Shadows.behind_count ?_
    refine perform_lockstep Shadows.placing (runs 2 1 settled) (expands 2 1 settled.succ) ?_
    exact fun site name args _ => serve_shadows uses unwatched shallow (runs 2 2 settled.succ)
      (expands 2 2 settled.succ.succ) fuel (fun _ => settled) args

end Interpreter

/-- The piece is a call that may ask for the chain around it: a control call whose name is evaluated,
or is one of those that ask. -/
def Node.MayAsk : Node Token → Prop
  | .statement (.control _ (.literal _ name) _ _) => name = "elif" ∨ name = "else"
  | .statement (.control _ _ _ _) => True
  | _ => False

namespace Interpreter

variable {it : Interpreter σ} {random : Slot σ γ} {streams : Slot σ Streams} {p : Splice}
  {q r : Past}

/-- Right behind the frames that were put in, the first piece that is run there goes alike, unless it
may ask for the chain. -/
lemma runNode_shadows_first (uses : it.Uses (Standard random streams)) (unwatched : it.Unwatched)
    (endless : it.limits.maxSteps = 0) (shallow : it.limits.maxCallDepth = 0) (fuel : Nat)
    {node : Node Token} (asks : ¬ node.MayAsk) :
    Shadows p q r 0 1 True (it.recorded.runNode fuel node) (it.recorded.runNode fuel node) := by
  cases fuel with
  | zero => exact fun _ _ _ => .none
  | succ fuel =>
    obtain ⟨runs, expands⟩ := run_shadows (p := p) (q := q) (r := r) uses unwatched endless shallow fuel
    have settled : Settles 1 2 := .inl (Nat.le_refl 2)
    have serves : ∀ {site : CallSite} {name}, ¬ AsksForChain site.kind name → ∀ args,
        Shadows p q r 1 1 True
          (it.recorded.serve (it.recorded.runNode fuel) (it.recorded.expand fuel) fuel site name args)
          (it.recorded.serve (it.recorded.runNode fuel) (it.recorded.expand fuel) fuel site name args) :=
      fun other => serve_shadows uses unwatched shallow (runs 1 2 settled)
        (expands 1 2 settled.succ) fuel (absurd · other)
    have other : node.kind ≠ .control → Shadows p q r 1 1 True
        (it.recorded.perform (it.recorded.runNode fuel) (it.recorded.expand fuel) fuel node)
        (it.recorded.perform (it.recorded.runNode fuel) (it.recorded.expand fuel) fuel node) := by
      intro other
      refine perform_lockstep Shadows.placing
        (runNode_shadows_second uses unwatched endless shallow fuel) (expands 1 1 settled) ?_
      exact fun site name args within => serves (fun asks => other (within asks.1)) args
    rw [runNode]
    -- the piece itself is counted there, and settles the chain for what it runs
    refine (Shadows.step unwatched endless _).bind fun _ => Shadows.behind_count ?_
    cases node with
    | statement statement =>
      cases statement with
      | control origin name args body =>
        cases name with
        | literal token name =>
          refine Shadows.bind ?_ fun _ => .pure ()
          rw [call_of_literal _ _ _ _ rfl]
          exact (Word.arguments_lockstep Shadows.placing.toLockstep (expands 1 1 settled) args).bind
            fun given => serves (fun asks' => asks asks'.2) given
        | _ => exact absurd trivial asks
      | _ => exact other (by rintro ⟨⟩)
    | script body => exact other (by rintro ⟨⟩)
    | arguments args => exact other (by rintro ⟨⟩)
    | word word => exact other (by cases word <;> rintro ⟨⟩)

section

variable {counted above : Nat} (uses : it.Uses (Standard random streams)) (unwatched : it.Unwatched)
  (endless : it.limits.maxSteps = 0) (shallow : it.limits.maxCallDepth = 0)
include uses

/-- The handlers of the base library pass on every error of what they run. -/
lemma Uses.orderly : it.Uses fun _ handler => handler.Orderly :=
  uses.mono fun _ _ standard call => ((standard.plain call).mono fun _ _ => trivial).orderly

include unwatched endless shallow

/-- With enough fuel, too, a run shadows itself beside frames that are put in. -/
lemma runs_shadows (settled : Settles counted above) (node : Node Token) :
    Shadows p q r counted above True (it.runs node) (it.runs node) :=
  fun s t spliced =>
    have grows : Growing fun fuel => it.recorded.runNode fuel node := growing_runNode uses.orderly node
    enough_rel grows grows fun fuel =>
      (run_shadows uses unwatched endless shallow fuel).1 counted above settled node s t spliced

/-- With enough fuel, too, arguments are evaluated alike beside frames that are put in. -/
lemma reads_shadows (settled : Settles counted (above + 1)) (words : List (Word Token)) :
    Shadows p q r counted above True (it.reads words) (it.reads words) :=
  fun s t spliced =>
    have grows : Growing fun fuel => Word.arguments (it.recorded.expand fuel) words :=
      growing_arguments uses.orderly words
    enough_rel grows grows fun fuel =>
      Word.arguments_lockstep Shadows.placing.toLockstep
        ((run_shadows uses unwatched endless shallow fuel).2 counted above settled) words s t spliced

end

end Interpreter

end Scriptlet
