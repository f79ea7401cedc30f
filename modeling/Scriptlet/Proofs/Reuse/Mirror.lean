import Scriptlet.Proofs.Evaluation.Orderly
import Scriptlet.Proofs.Reuse.Alike

/-!
# Runs that mirror each other

From contexts that are alike, a piece of a script goes the same way: it ends in the same result and
in contexts that are alike, and the same happens on the way, in as many steps (`Mirrors`). The one
thing that can be told before two statements have been counted is the else-chain of the global frame,
and only by a control call that stands there (`run_mirrors`, `runNode_mirrors`).
-/

namespace Scriptlet

variable {σ α β γ : Type} [RandomSource γ]

/-- What has happened, and in how many steps. -/
structure Past where
  events : List Event
  steps : Nat

/-- What has happened before, and then what has happened since. -/
def Past.append (before since : Past) : Past :=
  ⟨before.events ++ since.events, before.steps + since.steps⟩

instance : Append Past := ⟨Past.append⟩

/-- What happens in three parts does not depend on the brackets. -/
lemma Past.append_assoc (p q r : Past) : p ++ q ++ r = p ++ (q ++ r) :=
  congrArg₂ Past.mk (List.append_assoc _ _ _) (Nat.add_assoc _ _ _)

/-- Nothing happens behind the past. -/
lemma Past.append_nil (p : Past) : p ++ ⟨[], 0⟩ = p :=
  congrArg₂ Past.mk (List.append_nil _) rfl

open Evaluation

namespace State

/-- What has happened before the state, as far as it is kept. -/
def past (s : State (Recorded σ)) : Past :=
  ⟨s.host.moments.map Moment.event, s.context.steps⟩

/-- With so many calls in progress, the contexts are alike, and the same has happened in both since
so much had happened in each. -/
structure Alike (p q : Past) (counted depth : Nat) (s t : State (Recorded σ)) : Prop where
  context : s.context.Alike counted t.context
  depth : s.context.scopes.depth = depth
  host : s.host.host = t.host.host
  since : ∃ news, s.past = p ++ news ∧ t.past = q ++ news

variable {p q : Past} {counted depth : Nat} {s t : State (Recorded σ)}

/-- States that are alike after some statements are alike after fewer. -/
lemma Alike.mono {m : Nat} (h : s.Alike p q counted depth t) (le : m ≤ counted) :
    s.Alike p q m depth t :=
  ⟨h.context.mono le, h.depth, h.host, h.since⟩

/-- The same call begins in both. -/
lemma Alike.push (h : s.Alike p q counted depth t) (call : ActiveCall) (owns : Bool) :
    (withScopes (·.push (.ofCall call owns)) s).Alike p q counted (depth + 1)
      (withScopes (·.push (.ofCall call owns)) t) where
  context := ⟨h.context.scopes.push call owns, h.context.definitions, h.context.flow⟩
  depth := congrArg (· + 1) h.depth
  host := h.host
  since := h.since

/-- The same call ends in both. -/
lemma Alike.pop (h : s.Alike p q counted (depth + 1) t) :
    (withScopes (·.pop) s).Alike p q counted depth (withScopes (·.pop) t) where
  context := ⟨h.context.scopes.pop, h.context.definitions, h.context.flow⟩
  depth := by
    show s.context.scopes.pop.depth = depth
    rw [ScopeStack.depth_pop, h.depth, Nat.add_sub_cancel]
  host := h.host
  since := h.since

/-- A statement that is counted in the global frame settles it further. -/
lemma Alike.countStatement (h : s.Alike p q counted 0 t) :
    (withScopes (·.modifyTop Frame.countStatement) s).Alike p q (counted + 1) 0
      (withScopes (·.modifyTop Frame.countStatement) t) where
  context := ⟨h.context.scopes.countStatement h.depth, h.context.definitions, h.context.flow⟩
  depth := h.depth
  host := h.host
  since := h.since

/-- Something more that happens in both. -/
lemma since_append (h : ∃ news, s.past = p ++ news ∧ t.past = q ++ news) {s' t' : State (Recorded σ)}
    {more : Past} (left : s'.past = s.past ++ more) (right : t'.past = t.past ++ more) :
    ∃ news, s'.past = p ++ news ∧ t'.past = q ++ news := by
  obtain ⟨news, before, before'⟩ := h
  refine ⟨news ++ more, ?_, ?_⟩
  · rw [left, before, Past.append_assoc]
  · rw [right, before', Past.append_assoc]

/-- A change that takes no steps leaves no trace. -/
lemma past_modify {change : Context → Context} (steps : ∀ c : Context, (change c).steps = c.steps)
    (s : State (Recorded σ)) : past ⟨change s.context, s.host⟩ = s.past :=
  congrArg (Past.mk _) (steps s.context)

/-- A note adds its event to the past. -/
lemma past_note (it : Interpreter σ) (event : Event) (s : State (Recorded σ)) :
    (it.note event s).past = s.past ++ ⟨[event], 0⟩ :=
  congrArg (Past.mk · _) List.map_append

/-- A step is noted and counted. -/
lemma past_takeStep (it : Interpreter σ) (location : Location) (s : State (Recorded σ)) :
    (it.takeStep location s).past = s.past ++ ⟨[.step location], 1⟩ :=
  congrArg (Past.mk · _) List.map_append

end State

/-- The host keeps no notes of its own. -/
def Interpreter.Unwatched (it : Interpreter σ) : Prop :=
  ∀ event context host, it.observe event context host = host

namespace Evaluation

/-- From states that are alike, the evaluations have the same result and end in states that are. -/
def Mirrors (p q : Past) (counted depth : Nat) : Relation (Recorded σ) (Recorded σ) := fun _ x y =>
  ∀ s t, s.Alike p q counted depth t →
    Option.Rel (fun ended ended' =>
      ended.1 = ended'.1 ∧ ended.2.Alike p q counted depth ended'.2) (x s) (y t)

/-- Of two evaluations that are related, both have an end or none has one. -/
lemma ends_cases {γ δ : Type} {rel : γ → δ → Prop} {left : Option γ} {right : Option δ}
    (h : Option.Rel rel left right) :
    left = none ∧ right = none ∨ ∃ a b, left = some a ∧ right = some b ∧ rel a b := by
  cases h with
  | none => exact .inl ⟨rfl, rfl⟩
  | some related => exact .inr ⟨_, _, rfl, rfl, related⟩

namespace Mirrors

variable {p q : Past} {counted depth : Nat}

/-- Evaluations in turn have the same results if each pair does. -/
lemma bind {x y : Evaluation (Recorded σ) α} {f g : α → Evaluation (Recorded σ) β}
    (hx : Mirrors p q counted depth x y) (hf : ∀ value, Mirrors p q counted depth (f value) (g value)) :
    Mirrors p q counted depth (x >>= f) (y >>= g) := by
  intro s t alike
  show Option.Rel _ (andThen x f s) (andThen y g t)
  rw [andThen, andThen]
  rcases ends_cases (hx s t alike) with
    ⟨left, right⟩ | ⟨⟨result, s'⟩, ⟨_, t'⟩, left, right, rfl, alike⟩
  · rw [left, right]
    exact .none
  · rw [left, right]
    cases result with
    | error error => exact .some ⟨rfl, alike⟩
    | ok value => exact hf value s' t' alike

/-- Where the second evaluation ends, the first does. -/
lemma exists_of_some {x y : Evaluation (Recorded σ) α} (h : Mirrors p q counted depth x y)
    {s t t' : State (Recorded σ)} {result : Except RuntimeError α}
    (alike : s.Alike p q counted depth t) (ends : y t = some (result, t')) :
    ∃ s', x s = some (result, s') ∧ s'.Alike p q counted depth t' := by
  rcases ends_cases (h s t alike) with ⟨-, right⟩ | ⟨⟨_, s'⟩, _, left, right, rfl, alike⟩
  · cases right.symm.trans ends
  · cases right.symm.trans ends
    exact ⟨s', left, alike⟩

/-- A value is the same in both. -/
lemma pure (value : α) :
    Mirrors (σ := σ) p q counted depth (Pure.pure value) (Pure.pure value) :=
  fun _ _ alike => .some ⟨rfl, alike⟩

/-- An error is the same in both. -/
lemma raise (error : RuntimeError) :
    Mirrors (σ := σ) (α := α) p q counted depth (Evaluation.raise error) (Evaluation.raise error) :=
  fun _ _ alike => .some ⟨rfl, alike⟩

/-- No evaluation can tell the contexts apart. -/
lemma inspect {f g : Context → Evaluation (Recorded σ) β}
    (hf : ∀ c c', c.Alike counted c' → c.scopes.depth = depth →
      Mirrors p q counted depth (f c) (g c')) :
    Mirrors p q counted depth (Evaluation.context >>= f) (Evaluation.context >>= g) :=
  fun s t alike => hf s.context t.context alike.context alike.depth s t alike

/-- Errors are given the same places in both. -/
lemma placing : Relation.Placing (Mirrors (σ := σ) p q counted depth) where
  pure := pure
  bind := bind
  context hf := inspect fun c c' alike _ => hf c c' alike.looksLike
  failAt location fault := by
    refine inspect fun c c' alike _ => ?_
    rw [ScopeStack.backtrace_eq_of_shape alike.scopes.shape]
    exact raise _

/-- Calls are served alike. -/
lemma serving (ceiling : Nat) : Relation.Serving (Mirrors (σ := σ) p q counted depth) ceiling where
  toPlacing := placing
  calls hf := inspect fun c c' alike _ => hf c c' alike.looksLike (.inr alike.scopes.depth)

/-- A change that keeps contexts alike, takes no steps, and neither enters nor leaves calls. -/
lemma modify {change : Context → Context}
    (keeps : ∀ {c c' : Context}, c.Alike counted c' → (change c).Alike counted (change c'))
    (steps : ∀ c : Context, (change c).steps = c.steps)
    (shape : ∀ c : Context, (change c).scopes.shape = c.scopes.shape) :
    Mirrors (σ := σ) p q counted depth (Evaluation.modify change) (Evaluation.modify change) := by
  intro s t alike
  refine .some ⟨rfl, keeps alike.context, ?_, alike.host, ?_⟩
  · exact (ScopeStack.depth_eq_of_shape (shape s.context)).trans alike.depth
  · rw [State.past_modify steps, State.past_modify steps]
    exact alike.since

/-- An attempt ends alike, whether it fails or not. -/
lemma attempt {x y : Evaluation (Recorded σ) α} (h : Mirrors p q counted depth x y) :
    Mirrors p q counted depth (Evaluation.attempt x) (Evaluation.attempt y) := by
  intro s t alike
  rw [Evaluation.attempt, Evaluation.attempt]
  rcases ends_cases (h s t alike) with ⟨left, right⟩ | ⟨_, _, left, right, same, alike⟩
  · rw [left, right]
    exact .none
  · rw [left, right]
    exact .some ⟨congrArg Except.ok same, alike⟩

/-- A call has the same result if its body has, one frame further in. -/
lemma inFrame {x y : Evaluation (Recorded σ) α} (h : Mirrors p q counted (depth + 1) x y)
    (call : ActiveCall) (owns : Bool) :
    Mirrors p q counted depth (Evaluation.inFrame (.ofCall call owns) x)
      (Evaluation.inFrame (.ofCall call owns) y) := by
  intro s t alike
  rw [Evaluation.inFrame, Evaluation.inFrame]
  rcases ends_cases (h _ _ (alike.push call owns)) with
    ⟨left, right⟩ | ⟨⟨result, s'⟩, ⟨_, t'⟩, left, right, rfl, alike⟩
  · rw [left, right]
    exact .none
  · rw [left, right]
    cases result with
    | ok value => exact .some ⟨rfl, alike.pop⟩
    | error error =>
      dsimp only
      rw [ScopeStack.backtrace_eq_of_shape alike.context.scopes.shape]
      exact .some ⟨rfl, alike.pop⟩

variable {it : Interpreter σ}

/-- The same is noted of both. -/
lemma notify (unwatched : it.Unwatched) (event : Event) :
    Mirrors p q counted depth (Evaluation.notify it.recorded.observe event)
      (Evaluation.notify it.recorded.observe event) := by
  intro s t alike
  refine .some ⟨rfl, alike.context, alike.depth, ?_, ?_⟩
  · show it.observe event s.context s.host.host = it.observe event t.context t.host.host
    rw [unwatched, unwatched, alike.host]
  · exact State.since_append alike.since (State.past_note it event s) (State.past_note it event t)

/-- What is done around a call is done in both. -/
lemma framing (unwatched : it.Unwatched) :
    Relation.Framing (Mirrors p q counted depth) (Mirrors p q counted depth) it.recorded it.recorded where
  inside := placing
  fail fault := raise (.ofFault fault)
  enter h := h
  notify := notify unwatched
  passage passage := modify (fun alike => alike.passage passage) passage.steps passage.shape

/-- Actions mirror themselves that cannot tell the contexts apart. -/
lemma ofAction {kind : CallKind} {name : String} {allowed : Update → Prop} {runs : Prop}
    {body : Evaluation (Recorded σ) Unit} {arguments : Evaluation (Recorded σ) (List String)}
    (settled : kind = .control → 2 ≤ counted ∨ 1 ≤ depth)
    (bodies : Mirrors p q counted (depth + 1) body body)
    (rereads : Mirrors p q counted (depth + 1) arguments arguments) (rounds : Nat)
    {action : Action σ α} (h : action.Confined (Context.SameFor kind name) allowed runs) :
    Mirrors p q counted (depth + 1) (ofAction body arguments rounds action.recorded)
      (Evaluation.ofAction body arguments rounds action.recorded) := by
  induction h with
  | done answer => exact pure answer
  | raise error => exact raise error
  | inspect same _ ih =>
    refine inspect fun c c' alike deep => ?_
    have chain : kind = .control → c.scopes.parent.chainOpen = c'.scopes.parent.chainOpen := by
      intro control
      refine alike.scopes.chainOpen_parent ?_ ?_
      · omega
      · have := settled control
        omega
    dsimp only
    rw [same c c' ⟨alike.looksLike, fun asks => chain asks.1⟩]
    exact ih c'
  | @update change _ _ _ ih =>
    refine bind (modify (fun alike => alike.update change) ?_ ?_) fun _ => ih
    · exact fun c => c.steps_update change
    · exact fun c => c.shape_update change
  | @readHost rest _ ih =>
    intro s t alike
    have read := ih t.host.host s t alike
    show Option.Rel _ (Evaluation.ofAction body arguments rounds (rest s.host.host).recorded s) _
    rw [alike.host]
    exact read
  | writeHost host _ ih =>
    intro s t alike
    exact ih ⟨s.context, { s.host with host := host }⟩ ⟨t.context, { t.host with host := host }⟩
      ⟨alike.context, alike.depth, rfl, alike.since⟩
  | runBody _ _ ih => exact bind bodies.attempt fun result => ih (error? result)
  | rereadArgs _ _ ih => exact bind rereads.attempt ih
  | rounds _ ih => exact ih rounds
  | exhausted => exact fun _ _ _ => .none

/-- A statement is counted alike. -/
lemma countStatement :
    Mirrors (σ := σ) p q counted depth Interpreter.countStatement Interpreter.countStatement := by
  refine modify ?_ (fun _ => rfl) fun c => ScopeStack.shape_modifyTop _ fun frame => rfl
  intro c c' alike
  refine ⟨alike.scopes.modifyTop fun frames => ?_, alike.definitions, alike.flow⟩
  exact frames.countStatement.mono (Nat.le_succ _)

/-- What comes behind a statement that is counted in the global frame finds that frame settled
further. -/
lemma behind_count {x y : Evaluation (Recorded σ) α} (h : Mirrors p q (counted + 1) 0 x y) :
    Mirrors p q counted 0 (Interpreter.countStatement >>= fun _ => x)
      (Interpreter.countStatement >>= fun _ => y) := by
  intro s t alike
  rcases ends_cases (h _ _ alike.countStatement) with
    ⟨left, right⟩ | ⟨_, _, left, right, same, alike⟩
  · show Option.Rel _ (x (withScopes _ s)) (y (withScopes _ t))
    rw [left, right]
    exact .none
  · show Option.Rel _ (x (withScopes _ s)) (y (withScopes _ t))
    rw [left, right]
    exact .some ⟨same, alike.mono (Nat.le_succ _)⟩

/-- A step is taken alike, and is one too many on both sides or on none. -/
lemma step (unwatched : it.Unwatched) (ceiling : it.limits.maxSteps = 0 ∨ p.steps = q.steps)
    (location : Location) :
    Mirrors p q counted depth (it.recorded.step location) (it.recorded.step location) := by
  intro s t alike
  rw [it.step_recorded, it.step_recorded]
  have taken : (it.takeStep location s).Alike p q counted depth (it.takeStep location t) := by
    refine ⟨⟨alike.context.scopes, alike.context.definitions, alike.context.flow⟩, alike.depth, ?_, ?_⟩
    · show it.observe _ _ _ = it.observe _ _ _
      rw [unwatched, unwatched]
      exact alike.host
    · exact State.since_append alike.since (State.past_takeStep ..) (State.past_takeStep ..)
  -- under a ceiling, as many steps have been taken on both sides
  have same : (0 < it.limits.maxSteps ∧ it.limits.maxSteps < s.context.steps + 1) =
      (0 < it.limits.maxSteps ∧ it.limits.maxSteps < t.context.steps + 1) := by
    rcases ceiling with none | same
    · simp [none]
    · obtain ⟨news, left, right⟩ := alike.since
      have steps : s.context.steps = p.steps + news.steps := congrArg Past.steps left
      have steps' : t.context.steps = q.steps + news.steps := congrArg Past.steps right
      rw [steps, steps', same]
  simp only [same]
  split
  · exact placing.failAt location _ _ _ taken
  · exact .some ⟨rfl, taken⟩

end Mirrors

end Evaluation

namespace Interpreter

variable {it : Interpreter σ} {random : Slot σ γ} {streams : Slot σ Streams} {p q : Past}
  {counted depth : Nat}

/-- Calls are served alike, control calls only where the chain around them is settled. -/
lemma serve_mirrors (uses : it.Uses (Standard random streams)) (unwatched : it.Unwatched)
    {run : Node Token → Evaluation (Recorded σ) Unit} {expand : Expand (Recorded σ)}
    (runs : ∀ node, Mirrors p q counted (depth + 1) (run node) (run node))
    (expands : ∀ origin name args,
      Mirrors p q counted (depth + 1) (expand origin name args) (expand origin name args))
    (rounds : Nat) {site : CallSite} (settled : site.kind = .control → 2 ≤ counted ∨ 1 ≤ depth)
    (name : String) (args : List String) :
    Mirrors p q counted depth (it.recorded.serve run expand rounds site name args)
      (it.recorded.serve run expand rounds site name args) := by
  have framing : Relation.Framing (Mirrors p q counted (depth + 1)) (Mirrors p q counted (depth + 1))
    it.recorded it.recorded := Mirrors.framing unwatched
  refine serve_lockstep (Mirrors.serving _) rfl fun definition => Mirrors.inFrame ?_ _ _
  refine dispatch_lockstep framing runs definition (handlers_rel uses fun handler standard => ?_)
  refine handle_lockstep framing (Mirrors.ofAction settled ?_ ?_ rounds (standard.confined _))
  · exact runBody_lockstep framing runs site name
  · exact Word.arguments_lockstep framing.inside.toLockstep expands site.args

/-- Expansions go alike everywhere, and statements do wherever the chain of their frame is settled. -/
lemma run_mirrors (uses : it.Uses (Standard random streams)) (unwatched : it.Unwatched)
    (ceiling : it.limits.maxSteps = 0 ∨ p.steps = q.steps) (fuel : Nat) :
    (∀ counted depth, 2 ≤ counted ∨ 1 ≤ depth → ∀ node,
      Mirrors p q counted depth (it.recorded.runNode fuel node) (it.recorded.runNode fuel node)) ∧
    ∀ counted depth origin name args, Mirrors p q counted depth
      (it.recorded.expand fuel origin name args) (it.recorded.expand fuel origin name args) := by
  induction fuel with
  | zero => exact ⟨fun _ _ _ _ _ _ _ => .none, fun _ _ _ _ _ _ _ _ => .none⟩
  | succ fuel ih =>
    obtain ⟨runs, expands⟩ := ih
    -- the body of a call is never in the global frame
    have serves : ∀ counted depth {site : CallSite},
        (site.kind = .control → 2 ≤ counted ∨ 1 ≤ depth) → ∀ name args, Mirrors p q counted depth
          (it.recorded.serve (it.recorded.runNode fuel) (it.recorded.expand fuel) fuel site name args)
          (it.recorded.serve (it.recorded.runNode fuel) (it.recorded.expand fuel) fuel site name args) :=
      fun counted depth _ settled => serve_mirrors uses unwatched
        (runs counted (depth + 1) (.inr (Nat.le_add_left _ _))) (expands counted (depth + 1)) fuel settled
    refine ⟨fun counted depth settled node => ?_, fun counted depth origin name args => ?_⟩
    · rw [runNode]
      refine (Mirrors.step unwatched ceiling _).bind fun _ => Mirrors.countStatement.bind fun _ => ?_
      exact perform_lockstep Mirrors.placing (runs counted depth settled) (expands counted depth)
        fun site name args _ => serves counted depth (fun _ => settled) name args
    · rw [Interpreter.expand]
      refine (Mirrors.step unwatched ceiling _).bind fun _ => ?_
      exact call_lockstep Mirrors.placing.toLockstep (expands counted depth)
        (serves counted depth (by simp))

/-- In the global frame, statements go alike behind a statement that was counted there: they count as
the second. -/
lemma runNode_mirrors (uses : it.Uses (Standard random streams)) (unwatched : it.Unwatched)
    (ceiling : it.limits.maxSteps = 0 ∨ p.steps = q.steps) (fuel : Nat) (node : Node Token) :
    Mirrors p q 1 0 (it.recorded.runNode fuel node) (it.recorded.runNode fuel node) := by
  cases fuel with
  | zero => exact fun _ _ _ => .none
  | succ fuel =>
    obtain ⟨runs, expands⟩ := run_mirrors uses unwatched ceiling fuel
    rw [runNode]
    refine (Mirrors.step unwatched ceiling _).bind fun _ => Mirrors.behind_count ?_
    refine perform_lockstep Mirrors.placing (runs 2 0 (.inl (Nat.le_refl 2))) (expands 2 0) ?_
    exact fun site name args _ => serve_mirrors uses unwatched
      (runs 2 1 (.inr (Nat.le_refl 1))) (expands 2 1) fuel (fun _ => .inl (Nat.le_refl 2)) name args

/-- What a piece does after it has been counted as the first goes alike, unless the piece is a
control call. -/
lemma perform_mirrors (uses : it.Uses (Standard random streams)) (unwatched : it.Unwatched)
    (ceiling : it.limits.maxSteps = 0 ∨ p.steps = q.steps) (fuel : Nat) {node : Node Token}
    (other : node.kind ≠ .control) :
    Mirrors p q 1 0
      (it.recorded.perform (it.recorded.runNode fuel) (it.recorded.expand fuel) fuel node)
      (it.recorded.perform (it.recorded.runNode fuel) (it.recorded.expand fuel) fuel node) := by
  obtain ⟨runs, expands⟩ := run_mirrors uses unwatched ceiling fuel
  refine perform_lockstep Mirrors.placing (runNode_mirrors uses unwatched ceiling fuel)
    (expands 1 0) ?_
  exact fun site name args within => serve_mirrors uses unwatched (runs 1 1 (.inr (Nat.le_refl 1)))
    (expands 1 1) fuel (fun control => absurd (within control) other) name args

/-- The first piece that is run in the global frame goes alike, unless it is a control call, and so
does what goes alike behind it. -/
lemma runNode_bind_mirrors (uses : it.Uses (Standard random streams)) (unwatched : it.Unwatched)
    (ceiling : it.limits.maxSteps = 0 ∨ p.steps = q.steps) (fuel : Nat) {node : Node Token}
    (other : node.kind ≠ .control) {x y : Evaluation (Recorded σ) Unit} (rest : Mirrors p q 1 0 x y) :
    Mirrors p q 0 0 (it.recorded.runNode fuel node >>= fun _ => x)
      (it.recorded.runNode fuel node >>= fun _ => y) := by
  cases fuel with
  | zero => exact fun _ _ _ => .none
  | succ fuel =>
    rw [runNode]
    simp only [bind_assoc]
    refine (Mirrors.step unwatched ceiling _).bind fun _ => Mirrors.behind_count ?_
    exact (perform_mirrors uses unwatched ceiling fuel other).bind fun _ => rest

/-- From contexts of which nothing has been settled, everything but a control call runs alike:
nothing else looks at the chain of its frame. -/
lemma runNode_mirrors_first (uses : it.Uses (Standard random streams)) (unwatched : it.Unwatched)
    (ceiling : it.limits.maxSteps = 0 ∨ p.steps = q.steps) (fuel : Nat) {node : Node Token}
    (other : node.kind ≠ .control) :
    Mirrors p q 0 0 (it.recorded.runNode fuel node) (it.recorded.runNode fuel node) := by
  have alone := runNode_bind_mirrors uses unwatched ceiling fuel other (p := p) (q := q) (.pure ())
  rwa [bind_pure_self] at alone

end Interpreter

end Scriptlet
