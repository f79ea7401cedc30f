import Scriptlet.Proofs.Choice.Calls
import Scriptlet.Proofs.Errors.Origin
import Scriptlet.Proofs.Flow.Return
import Scriptlet.Proofs.Loop.Calls
import Scriptlet.Proofs.Loop.Shadow
import Scriptlet.Proofs.Reuse.Piecewise

/-!
# Rounds in a call of their own

What a loop does from its second reading on, a loop behind the first body does in a call of its own:
one more frame that owns no scope, and the first statement in it finds no else-chain
(`again_unrolled`). So the rounds do what the body of a choice does that holds the first body and the
loop (`loops_chosen`). Beside the steps, all that is told of more is the call of that loop
(`State.SplitCalls`).
-/

namespace Scriptlet

open Evaluation

variable {σ α β γ : Type} [RandomSource γ] {random : Slot σ γ} {streams : Slot σ Streams}

/-- Whether the innermost frame owns a scope is part of what lasts of it. -/
lemma ScopeStack.scope_top_of_shape {s t : ScopeStack} (h : s.shape = t.shape)
    (bare : t.top.scope = none) : s.top.scope = none := by
  have same : s.top.ownsScope = t.top.ownsScope := congrArg Prod.snd (List.cons.inj h).1
  rw [Frame.ownsScope, Frame.ownsScope, bare] at same
  exact Option.isNone_iff_eq_none.1 (by simpa using same)

/-- What happens to the frame around a call does not happen to that of the call. -/
lemma ScopeStack.top_modifyParent {s : ScopeStack} (inside : 0 < s.depth) (f : Frame → Frame) :
    (s.modifyParent f).top = s.top := by
  obtain ⟨top, _ | ⟨around, rest⟩⟩ := s
  · cases inside
  · rfl

namespace Interpreter

variable {it : Interpreter σ}

/-- With enough fuel, too, a statement is left with the frames that it was started with. -/
lemma shape_runs {node : Node Token} {s s' : State (Recorded σ)} {result : Except RuntimeError Unit}
    (ran : it.runs node s = some (result, s')) :
    s'.context.scopes.shape = s.context.scopes.shape := by
  obtain ⟨fuel, ran⟩ := exists_of_enough ran
  exact (run_keeps it.recorded fuel).1 node _ _ _ ran

/-- With enough fuel, too, arguments are evaluated with the frames left as they were. -/
lemma shape_reads {words : List (Word Token)} {s s' : State (Recorded σ)}
    {result : Except RuntimeError (List String)} (read : it.reads words s = some (result, s')) :
    s'.context.scopes.shape = s.context.scopes.shape := by
  obtain ⟨fuel, read⟩ := exists_of_enough read
  exact arguments_keeps (run_keeps it.recorded fuel).2 words _ _ _ read

/-- Reading arguments does not put execution on its way out of a definition. -/
lemma flow_reads (uses : it.Uses (Standard random streams)) {words : List (Word Token)}
    {s s' : State (Recorded σ)} {result : Except RuntimeError (List String)}
    (start : s.context.flow ≠ .leaving) (read : it.reads words s = some (result, s')) :
    s'.context.flow ≠ .leaving := by
  obtain ⟨fuel, read⟩ := exists_of_enough read
  obtain ⟨mode, reading, flow⟩ := Flow.exists_reading start
  have carries := arguments_carries (run_carries uses fuel).2 words reading
  obtain ⟨last, reached, goes⟩ := carries _ (.of_reading reading flow) _ _ read
  have ended : s'.context.flow = last.flow := goes.flow
  rw [ended]
  exact reached.flow_ne_leaving

/-- If reading arguments has not stopped the run, it goes on. -/
lemma next_reads (uses : it.Uses (Standard random streams)) {words : List (Word Token)}
    {s s' : State (Recorded σ)} {result : Except RuntimeError (List String)}
    (start : s.context.flow ≠ .leaving) (read : it.reads words s = some (result, s'))
    (goes_on : s'.context.isStopped = false) : s'.context.flow = .next := by
  have inside := flow_reads uses start read
  rw [Context.isStopped, decide_eq_false_iff_not] at goes_on
  cases flow : s'.context.flow with
  | next => rfl
  | leaving => exact absurd flow inside
  | stopped => exact absurd flow goes_on

/-- Reading arguments leaves the else-chain as it is. -/
lemma openChain_reads (uses : it.Uses (Standard random streams)) {words : List (Word Token)}
    {s s' : State (Recorded σ)} {result : Except RuntimeError (List String)}
    (read : it.reads words s = some (result, s')) :
    s'.context.scopes.top.openChain = s.context.scopes.top.openChain := by
  obtain ⟨fuel, read⟩ := exists_of_enough read
  have forgets := Word.arguments_rel Forgets.monadic.toSequential (run_forgets it fuel).2 words
  have left := arguments_leave uses fuel words _ _ _ (forgets.of_recorded read)
  exact congrArg Prod.snd left.top

/-- A call that only goes on with a chain opens none where there is none. -/
lemma openChain_runs (uses : it.Uses (Standard random streams)) {origin named : Token} {name : String}
    {args : List (Word Token)} {body : Statement Token} (asks : name = "elif" ∨ name = "else")
    {s s' : State (Recorded σ)}
    (ran : it.runs (.statement (.control origin (.literal named name) args body)) s = some (.ok (), s'))
    (closed : s.context.scopes.top.openChain = none) : s'.context.scopes.top.openChain = none := by
  obtain ⟨fuel, ran⟩ := exists_of_enough ran
  have ran := ((run_forgets it fuel).1 _).of_recorded ran
  cases fuel with
  | zero => cases ran
  | succ fuel =>
    rw [runNode] at ran
    obtain ⟨_, s₁, stepped, ran⟩ := bind_ok ran
    obtain ⟨_, s₂, counted, ran⟩ := bind_ok ran
    cases counted
    obtain ⟨value, s₃, called, ended⟩ := bind_ok ran
    cases ended
    rw [call_of_literal _ _ _ _ rfl] at called
    obtain ⟨given, s₄, read, served⟩ := bind_ok called
    have reread := (arguments_leave uses fuel args _ _ _ read).top
    have stepped := (step_leaves (n := 0) _ _ _ _ stepped).top
    have shut : s₄.context.scopes.top.openChain = none := by
      refine (congrArg Prod.snd reread).trans ?_
      exact (congrArg Prod.snd stepped).trans closed
    show s'.forget.context.scopes.top.openChain = none
    rcases serve_ok served with ⟨-, -, same⟩ | ⟨-, answer, -, framed⟩
    · rw [same]
      exact shut
    · obtain ⟨-, opened⟩ := chain_of_control uses rfl rfl framed
      cases isOpen : s'.forget.context.scopes.top.openChain with
      | none => rfl
      | some number =>
        -- only an `if` opens a chain where there is none
        rcases opened number isOpen with before | ⟨-, -, named | before⟩
        · cases shut.symm.trans before
        · rw [show name = "if" from named] at asks
          exact absurd asks (by decide)
        · rw [Frame.chainOpen, shut] at before
          cases before

end Interpreter

/-- A call starts, of a definition or one that a handler serves. -/
def Event.isCall : Event → Bool
  | .step _ => false
  | _ => true

namespace State

/-- The calls that were served before the state, in order. -/
def calls (s : State (Recorded σ)) : List Event :=
  (s.host.moments.map Moment.event).filter Event.isCall

/-- Since so many calls had been served in each, the same calls were served in both. -/
def SameCalls (before before' : List Event) (s t : State (Recorded σ)) : Prop :=
  ∃ news, s.calls = before ++ news ∧ t.calls = before' ++ news

/-- Of the calls that were served since, one of a loop at this place may have been served in the second
alone. -/
def SplitCalls (again : Location) (before before' : List Event) (s t : State (Recorded σ)) : Prop :=
  ∃ first inner second, s.calls = before ++ first ++ second ∧
    t.calls = before' ++ first ++ inner ++ second ∧
    (inner = [] ∨ ∃ args, inner = [.handler ⟨"while", .control, args, again⟩])

variable {before before' : List Event} {s t s' t' : State (Recorded σ)} {p : Splice} {q r : Past}
  {counted above : Nat}

/-- Where nothing happens no calls are served. -/
lemma SameCalls.refl (s t : State (Recorded σ)) : SameCalls s.calls t.calls s t :=
  ⟨[], (List.append_nil _).symm, (List.append_nil _).symm⟩

/-- Calls may be the same first, and split after that. -/
lemma SameCalls.trans_split {again : Location} (h : SameCalls before before' s t)
    (h' : SplitCalls again s.calls t.calls s' t') : SplitCalls again before before' s' t' := by
  obtain ⟨news, left, right⟩ := h
  obtain ⟨first, inner, second, left', right', own⟩ := h'
  refine ⟨news ++ first, inner, second, ?_, ?_, own⟩
  · rw [left', left]
    simp only [List.append_assoc]
  · rw [right', right]
    simp only [List.append_assoc]

/-- The same calls need no split. -/
lemma SameCalls.split (h : SameCalls before before' s t) (again : Location) :
    SplitCalls again before before' s t := by
  obtain ⟨news, left, right⟩ := h
  exact ⟨news, [], [], by simpa using left, by simpa using right, .inl rfl⟩

/-- What was told beside frames that are put in are the same calls. -/
lemma Spliced.sameCalls (h : s.Spliced p q r counted above t) :
    SameCalls (q.events.filter Event.isCall) (r.events.filter Event.isCall) s t := by
  obtain ⟨news, left, right⟩ := h.since
  refine ⟨news.events.filter Event.isCall, ?_, ?_⟩
  · exact (congrArg (List.filter Event.isCall ∘ Past.events) left).trans (List.filter_append _ _)
  · exact (congrArg (List.filter Event.isCall ∘ Past.events) right).trans (List.filter_append _ _)

/-- Before their innermost frames, which have this number, the states hold the same. -/
structure Beside (last : Nat) (s t : State (Recorded σ)) : Prop where
  left : s.context.scopes.depth = last
  right : t.context.scopes.depth = last
  frames : ∀ n < last, Option.Rel Frame.SameData s.context.scopes.frames[n]? t.context.scopes.frames[n]?
  definitions : s.context.definitions = t.context.definitions
  flow : s.context.flow = t.context.flow
  host : s.host.host = t.host.host

/-- With no frames left between, both stand beside each other. -/
lemma Spliced.beside (h : s.Spliced p q r counted 1 t) (alone : p.extra = 0) : s.Beside p.base t where
  left := Nat.succ.inj h.context.scopes.left
  right := by
    have right := h.context.scopes.right
    omega
  frames _ lt := h.context.scopes.sameData lt
  definitions := h.context.definitions
  flow := h.context.flow
  host := h.host

/-- The call of the frame that was put in ends. -/
lemma Spliced.beside_pop (h : s.Spliced p q r counted 1 t) (one : p.extra = 1) :
    s.Beside p.base (withScopes (·.pop) t) where
  left := Nat.succ.inj h.context.scopes.left
  right := by
    have right := h.context.scopes.right
    show t.context.scopes.pop.depth = p.base
    rw [ScopeStack.depth_pop]
    omega
  frames n lt := by
    have right := h.context.scopes.right
    show Option.Rel _ _ t.context.scopes.pop.frames[n]?
    rw [ScopeStack.getElem?_frames_pop _ (by omega), if_pos (by omega)]
    exact h.context.scopes.sameData lt
  definitions := h.context.definitions
  flow := h.context.flow
  host := h.host

end State

/-- The statement is a control call whose name is evaluated. -/
def Statement.NamedLate : Statement Token → Prop
  | .control _ name _ _ => name.content? = none
  | _ => False

namespace Interpreter

/-- If the statement is a control call whose name is evaluated, it is none that leaves an else-chain
open when it goes through. -/
def LeavesShut (it : Interpreter σ) (body : Statement Token) (s : State (Recorded σ)) : Prop :=
  body.NamedLate → ∀ s', it.runs (.statement body) s = some (.ok (), s') →
    s'.context.scopes.top.openChain = none

variable {it : Interpreter σ} {condition : List (Word Token)} {body : Statement Token} {p : Splice}
  {q r : Past} {counted : Nat} {s t : State (Recorded σ)}

/-- Without a ceiling for them, the step of a piece and the counting of it always go through. -/
lemma begin_eq (endless : it.limits.maxSteps = 0) (node : Node Token)
    (x : Evaluation (Recorded σ) α) (s : State (Recorded σ)) :
    (it.recorded.step node.start >>= fun _ => countStatement >>= fun _ => x) s =
      x (it.entered node s) := by
  have stepped : it.recorded.step node.start s = some (.ok (), it.takeStep node.start s) := by
    rw [step_recorded, if_neg fun ceiling => absurd ceiling.1 (by omega)]
  rw [bind_of_ok stepped]
  rfl

/-- To enter a statement serves no call. -/
lemma calls_entered (it : Interpreter σ) (node : Node Token) (s : State (Recorded σ)) :
    (it.entered node s).calls = s.calls := by
  have more : (it.entered node s).host.moments.map Moment.event =
      s.host.moments.map Moment.event ++ [.step node.start] := List.map_append
  rw [State.calls, more, List.filter_append]
  exact List.append_nil _

/-- The state in which a call is served: its frame is entered, and it is told of. -/
def served (it : Interpreter σ) (call : ActiveCall) (s : State (Recorded σ)) : State (Recorded σ) :=
  it.note (.handler call) (withScopes (·.push (.ofCall call false)) s)

/-- What follows on the call is done in its frame, with the call told of. -/
lemma bind_served (call : ActiveCall) (x : Evaluation (Recorded σ) α) (s : State (Recorded σ)) :
    (notify it.recorded.observe (.handler call) >>= fun _ => x)
      (withScopes (·.push (.ofCall call false)) s) = x (it.served call s) := rfl

/-- A call that is served is told of last. -/
lemma calls_served (it : Interpreter σ) (call : ActiveCall) (s : State (Recorded σ)) :
    (it.served call s).calls = s.calls ++ [.handler call] := by
  have more : (it.served call s).host.moments.map Moment.event =
      s.host.moments.map Moment.event ++ [.handler call] := List.map_append
  rw [State.calls, more, List.filter_append]
  rfl

section

variable (unwatched : it.Unwatched)
include unwatched

/-- A statement begins in the second of two frames alone. If neither has left a chain open, these are
as settled as can be. -/
lemma spliced_entered (h : s.Spliced p q r counted 1 t) {m : Nat}
    (closed : 1 ≤ m → s.context.scopes.top.openChain = none ∧ t.context.scopes.top.openChain = none)
    (node : Node Token) :
    s.Spliced p s.past (it.entered node t).past m 1 (it.entered node t) where
  context := ⟨h.context.scopes.countRight closed, h.context.definitions, h.context.flow⟩
  host := by
    show _ = it.observe _ _ _
    rw [unwatched]
    exact h.host
  since := State.since_now _ _

/-- A call is served in a frame that is put in behind the second of two frames that own no scope. -/
lemma spliced_served (h : s.Spliced p q r counted 1 t) (bare : s.context.scopes.top.scope = none)
    {m : Nat} (closed : 1 ≤ m → s.context.scopes.top.openChain = none) (call : ActiveCall) :
    s.Spliced p.more s.past (it.served call t).past m 1 (it.served call t) where
  context := ⟨h.context.scopes.insert bare closed call, h.context.definitions, h.context.flow⟩
  host := by
    show _ = it.observe _ _ _
    rw [unwatched]
    exact h.host
  since := State.since_now _ _

/-- Calls are served whose frames are like each other. -/
lemma spliced_called {above : Nat} (h : s.Spliced p q r counted above t) (call call' : ActiveCall) :
    (it.served call s).Spliced p (it.served call s).past (it.served call' t).past counted (above + 1)
      (it.served call' t) where
  context := (h.push call call' false).context
  host := by
    show it.observe _ _ _ = it.observe _ _ _
    rw [unwatched, unwatched]
    exact h.host
  since := State.since_now _ _

end

/-- A body that may ask for the chain leaves none open where there was none. -/
lemma closed_runs (uses : it.Uses (Standard random streams)) (shuts : it.LeavesShut body s)
    (ran : it.runs (.statement body) s = some (.ok (), t))
    (closed : s.context.scopes.top.openChain = none) (asks : (Node.statement body).MayAsk) :
    t.context.scopes.top.openChain = none := by
  cases body with
  | control opening name words inner =>
    cases name with
    | literal token name => exact openChain_runs uses asks ran closed
    | _ => exact shuts rfl _ ran
  | _ => exact asks.elim

/-- Rounds of a loop go alike where its body does. -/
lemma rounds_shadows (uses : it.Uses (Standard random streams)) (unwatched : it.Unwatched)
    (endless : it.limits.maxSteps = 0) (shallow : it.limits.maxCallDepth = 0) {fuel : Nat}
    (bodies : Shadows p q r counted 1 True (it.recorded.runNode fuel (.statement body))
      (it.recorded.runNode fuel (.statement body))) (many : Nat) (text : String) :
    Shadows p q r counted 1 True (it.rounds condition body fuel many text)
      (it.rounds condition body fuel many text) := by
  induction many generalizing text with
  | zero =>
    cases holds : Reading.isTrue text with
    | true =>
      rw [rounds_zero fuel holds]
      exact fun _ _ _ => .none
    | false =>
      rw [rounds_of_false fuel 0 holds]
      exact .pure ()
  | succ many ih =>
    cases holds : Reading.isTrue text with
    | true =>
      rw [rounds_of_true fuel many holds]
      refine bodies.bind fun _ => Shadows.inspect fun c c' spliced => ?_
      rw [spliced.looksLike.isInterrupted]
      split
      · exact .pure ()
      · have expands := (run_shadows (p := p) (q := q) (r := r) uses unwatched endless shallow fuel).2
          counted 1 (.inl (Nat.le_refl 2))
        exact (Word.arguments_lockstep Shadows.placing.toLockstep expands condition).bind
          fun args => ih (Text.unwords args)
    | false =>
      rw [rounds_of_false fuel (many + 1) holds]
      exact .pure ()

/-- With enough fuel, too, the rounds of a loop go alike where its body does. -/
lemma loops_shadows (uses : it.Uses (Standard random streams)) (unwatched : it.Unwatched)
    (endless : it.limits.maxSteps = 0) (shallow : it.limits.maxCallDepth = 0)
    (bodies : ∀ fuel, Shadows p q r counted 1 True (it.recorded.runNode fuel (.statement body))
      (it.recorded.runNode fuel (.statement body))) (text : String) :
    Shadows p q r counted 1 True (it.loops condition body text) (it.loops condition body text) := by
  intro s t spliced
  have grows : Growing fun fuel => it.rounds condition body fuel fuel text :=
    growing_rounds uses.orderly text
  exact enough_rel grows grows fun fuel =>
    rounds_shadows uses unwatched endless shallow (bodies fuel) fuel text s t spliced

/-- Both end alike in their innermost frames, which have this number. -/
def EndsBeside (last : Nat) (again : Location) (before before' : List Event)
    (ended ended' : Except RuntimeError Unit × State (Recorded σ)) : Prop :=
  SameEnd True ended.1 ended'.1 ∧ ended.2.Beside last ended'.2 ∧
    State.SplitCalls again before before' ended.2 ended'.2

section

variable (uses : it.Uses (Standard random streams)) (unwatched : it.Unwatched)
  (endless : it.limits.maxSteps = 0) (shallow : it.limits.maxCallDepth = 0)
include uses unwatched endless shallow

/-- The rounds of a loop go on in a frame that is put in as they do without it. -/
lemma loops_served (spliced : s.Spliced p q r counted 1 t) (alone : p.extra = 0)
    (bare : s.context.scopes.top.scope = none)
    (closed : (Node.statement body).MayAsk → s.context.scopes.top.openChain = none)
    {before before' : List Event} (calls : State.SameCalls before before' s t) (args : List String)
    (location : Location) (text : String) :
    let call : ActiveCall := ⟨"while", .control, args, location⟩
    Option.Rel (EndsBeside p.base location before before') (it.loops condition body text s)
      ((it.loops condition body text (it.served call t)).map (leave (.ofCall call false))) := by
  intro call
  -- a body that may ask for the chain needs it settled, and any other goes alike at once
  obtain ⟨m, settled, bodies⟩ : ∃ m, (1 ≤ m → s.context.scopes.top.openChain = none) ∧
      ∀ fuel, Shadows p.more s.past (it.served call t).past m 1 True
        (it.recorded.runNode fuel (.statement body)) (it.recorded.runNode fuel (.statement body)) := by
    by_cases asks : (Node.statement body).MayAsk
    · have settled : Settles 2 1 := .inr ⟨Nat.le_refl 1, Nat.le_refl 2⟩
      exact ⟨2, fun _ => closed asks, fun fuel =>
        (run_shadows uses unwatched endless shallow fuel).1 2 1 settled _⟩
    · exact ⟨0, (absurd · (Nat.not_succ_le_zero 0)),
        fun fuel => runNode_shadows_first uses unwatched endless shallow fuel asks⟩
  have put := spliced_served unwatched spliced bare settled call
  have looped : Option.Rel _ (it.loops condition body text s) (it.loops condition body text _) :=
    loops_shadows uses unwatched endless shallow bodies text _ _ put
  rcases ends_cases looped with
    ⟨left, right⟩ | ⟨⟨_, s₁⟩, ⟨_, t₁⟩, left, right, same, ended⟩
  · rw [left, right]
    exact .none
  have beside := ended.beside_pop (congrArg (· + 1) alone)
  have since : State.SameCalls s.calls (it.served call t).calls s₁ t₁ := ended.sameCalls
  have split : State.SplitCalls location before before' s₁ t₁ := by
    obtain ⟨first, left, right⟩ := calls
    obtain ⟨second, left', right'⟩ := since
    refine ⟨first, [.handler call], second, ?_, ?_, .inr ⟨args, rfl⟩⟩
    · rw [left', left]
    · rw [right', calls_served, right]
  rw [left, right, Option.map_some]
  cases same with
  | ok value => exact .some ⟨.ok value, beside, split⟩
  | error fault location has =>
    rw [Evaluation.leave, RuntimeError.locate_of_isSome (location ▸ has trivial)]
    exact .some ⟨.error fault location has, beside, split⟩

end

section

variable (uses : it.Uses (Standard random streams)) (unwatched : it.Unwatched)
  (endless : it.limits.maxSteps = 0) (shallow : it.limits.maxCallDepth = 0)
  (serving : Chain.handlerFor? (it.registry.chain .control) "while" =
    some Library.controls.toHandler)
include uses unwatched endless shallow serving

/-- What a loop does from its next reading on, the loop behind the first body does as a call of its
own, if that reading gives one argument and does not stop the run. -/
lemma again_unrolled (spliced : s.Spliced p q r 2 1 t) (alone : p.extra = 0)
    (bare : s.context.scopes.top.scope = none)
    (closed : (Node.statement body).MayAsk → s.context.scopes.top.openChain = none)
    (single : ∀ args s₁, it.reads condition s = some (.ok args, s₁) →
      args.length = 1 ∧ s₁.context.isStopped = false) (origin named : Token) :
    let again := controlSite origin (.literal named "while") condition body
    Option.Rel (EndsBeside p.base again.location s.calls t.calls)
      ((it.reads condition >>= fun args => it.loops condition body (Text.unwords args)) s)
      (it.runs again.node t) := by
  intro again
  rw [runs_while uses.orderly serving origin named]
  show Option.Rel _ _ ((it.recorded.step again.node.start >>= fun _ => countStatement >>= fun _ => _) t)
  rw [begin_eq endless]
  have entered := spliced_entered unwatched spliced (absurd · (Nat.not_succ_le_zero 0)) again.node
  have read := reads_shadows uses unwatched endless shallow (.inl (Nat.le_refl 2)) condition _ _ entered
  rcases ends_cases read with
    ⟨left, right⟩ | ⟨⟨_, s₁⟩, ⟨_, t₁⟩, left, right, same, reread⟩
  · show Option.Rel _ (andThen _ _ s) (andThen _ _ _)
    rw [andThen, andThen, left, right]
    exact .none
  have calls : State.SameCalls s.calls t.calls s₁ t₁ := by
    rw [← calls_entered it again.node t]
    exact reread.sameCalls
  cases same with
  | error fault location has =>
    rw [bind_of_error left, bind_of_error right]
    exact .some ⟨.error fault location has, reread.beside alone, calls.split _⟩
  | ok args =>
    rw [bind_of_ok left, bind_of_ok right]
    obtain ⟨one, goes_on⟩ := single args s₁ left
    have goes_on' : t₁.context.isStopped = false := reread.isStopped.symm.trans goes_on
    let call : ActiveCall := ⟨"while", .control, args, again.location⟩
    rw [permit_of_room goes_on' (.inl shallow), if_pos one, inFrame_eq_map]
    show Option.Rel _ _ ((it.loops condition body (Text.unwords args) (it.served call t₁)).map
      (leave (.ofCall call false)))
    -- from here on the second is one frame deeper
    refine loops_served uses unwatched endless shallow reread alone ?_ (fun asks => ?_) calls args
      again.location _
    · exact ScopeStack.scope_top_of_shape (shape_reads left) bare
    · rw [openChain_reads uses left]
      exact closed asks

/-- A loop whose condition was read as true does what its body does and a loop behind that, if its
next reading gives one argument and does not stop the run. -/
lemma loops_unrolled (spliced : s.Spliced p q r 2 1 t) (alone : p.extra = 0)
    (bare : s.context.scopes.top.scope = none)
    (closed : s.context.scopes.top.openChain = none ∧
      t.context.scopes.top.openChain = none)
    (next : s.context.flow = .next) {args : List String} (holds : Text.unwords args ≠ "0")
    (shuts : it.LeavesShut body s)
    (single : ∀ reading, it.Round condition body (args, s) reading →
      reading.1.length = 1 ∧ reading.2.context.isStopped = false) (block origin named : Token) :
    let again := controlSite origin (.literal named "while") condition body
    Option.Rel (EndsBeside p.base again.location s.calls t.calls)
      (it.loops condition body (Text.unwords args) s)
      (it.runs (.statement (.block block
        [body, .control origin (.literal named "while") condition body])) t) := by
  intro again
  let loop : Statement Token := .control origin (.literal named "while") condition body
  let node : Node Token := .statement (.block block [body, loop])
  have entered := spliced_entered unwatched spliced (m := 2) (fun _ => closed) node
  have next' : (it.entered node t).context.isInterrupted = false := by
    rw [Context.isInterrupted, ← entered.context.flow, next]
    rfl
  rw [runs_block uses.orderly, begin_eq endless, sequence_of_next next']
  have settled : Settles 2 1 := .inr ⟨Nat.le_refl 1, Nat.le_refl 2⟩
  have shadows := runs_shadows uses unwatched endless shallow settled (.statement body) _ _ entered
  rcases ends_cases shadows with
    ⟨left, right⟩ | ⟨⟨_, s₁⟩, ⟨_, t₁⟩, left, right, same, ran⟩
  · rw [loops_of_true uses.orderly (Reading.isTrue_iff.2 holds)]
    show Option.Rel _ (andThen _ _ s) (andThen _ _ _)
    rw [andThen, andThen, left, right]
    exact .none
  have calls : State.SameCalls s.calls t.calls s₁ t₁ := by
    rw [← calls_entered it node t]
    exact ran.sameCalls
  cases same with
  | error fault location has =>
    rw [loops_of_true uses.orderly (Reading.isTrue_iff.2 holds), bind_of_error left, bind_of_error right]
    exact .some ⟨.error fault location has, ran.beside alone, calls.split _⟩
  | ok _ =>
    rw [loops_of_body uses.orderly holds left, bind_of_ok right]
    cases goes_on : s₁.context.isInterrupted with
    | true =>
      have goes_on' : t₁.context.isInterrupted = true := ran.isInterrupted.symm.trans goes_on
      rw [if_pos rfl, sequence_of_interrupted goes_on']
      exact .some ⟨.ok (), ran.beside alone, calls.split _⟩
    | false =>
      have goes_on' : t₁.context.isInterrupted = false := ran.isInterrupted.symm.trans goes_on
      rw [if_neg Bool.false_ne_true, sequence_of_next goes_on']
      -- the first body is done; the loop reads its condition again where the block comes to its
      -- loop
      have bare' := ScopeStack.scope_top_of_shape (shape_runs left) bare
      have closed' := fun asks => closed_runs uses shuts left closed.1 asks
      have rest := again_unrolled uses unwatched endless shallow serving ran alone bare' closed'
        (fun args' s₂ read => single (args', s₂) ⟨holds, s₁, left, goes_on, read⟩) origin named
      have last : (it.runs (.statement loop) >>= fun _ => sequence (fun statement =>
          it.runs (.statement statement)) []) t₁ = it.runs again.node t₁ :=
        congrFun (bind_pure_self _) t₁
      rw [last]
      rcases ends_cases rest with ⟨left, right⟩ | ⟨_, _, left, right, same, beside, split⟩
      · rw [left, right]
        exact .none
      · rw [left, right]
        exact .some ⟨same, beside, calls.trans_split split⟩

/-- A loop does what the choice does that has the same condition, and whose body is that of the loop
and a loop behind it, if its next reading gives one argument and does not stop the run. -/
lemma loops_chosen (spliced : s.Spliced p q r 2 1 t) (alone : p.extra = 0)
    (bare : s.context.scopes.top.scope = none)
    (closed : s.context.scopes.top.openChain = none ∧
      t.context.scopes.top.openChain = none)
    (next : s.context.flow = .next) (args : List String) (shuts : it.LeavesShut body s)
    (single : ∀ reading, it.Round condition body (args, s) reading →
      reading.1.length = 1 ∧ reading.2.context.isStopped = false) (block origin named : Token) :
    let again := controlSite origin (.literal named "while") condition body
    let text := Text.unwords args
    Option.Rel (EndsBeside p.base again.location s.calls t.calls) (it.loops condition body text s)
      ((Evaluation.modify (·.update (.setChain !Reading.isTrue text)) >>= fun _ =>
        if Reading.isTrue text then it.runs (.statement (.block block
          [body, .control origin (.literal named "while") condition body])) else pure ()) t) := by
  intro again text
  let t' : State (Recorded σ) := ⟨t.context.update (.setChain !Reading.isTrue text), t.host⟩
  have set : s.Spliced p q r 2 1 t' :=
    ⟨⟨spliced.context.scopes.setChainRight alone _, spliced.context.definitions, spliced.context.flow⟩,
      spliced.host, spliced.since⟩
  have inside : 0 < t.context.scopes.depth := by
    have right := spliced.context.scopes.right
    have inner := p.inner
    omega
  have closed' : s.context.scopes.top.openChain = none ∧
      t'.context.scopes.top.openChain = none := by
    have top : t'.context.scopes.top = t.context.scopes.top :=
      ScopeStack.top_modifyParent inside _
    rw [top]
    exact closed
  show Option.Rel _ _ ((if Reading.isTrue text then _ else _ : Evaluation (Recorded σ) Unit) t')
  cases holds : Reading.isTrue text with
  | true =>
    rw [if_pos rfl]
    exact loops_unrolled uses unwatched endless shallow serving set alone bare closed' next
      (Reading.isTrue_iff.1 holds) shuts single block origin named
  | false =>
    rw [loops_of_false holds, if_neg Bool.false_ne_true]
    exact .some ⟨.ok (), set.beside alone, (State.SameCalls.refl s t').split _⟩

end

end Interpreter

end Scriptlet
