import Scriptlet.Proofs.Library.Standard
import Scriptlet.Proofs.Scope.Sealed

/-!
# Isolation of calls

A call of a definition changes no frame below its own, however it ends, unless a name is forwarded
while it is in progress. What is preserved inside the call, `Sealed`, says where the frame of the
call is and that no scope from there upwards forwards names; `Isolates` carries it through runs.
-/

namespace Scriptlet

variable {σ α β γ : Type} [RandomSource γ]

/-- Whether a call that a handler serves may forward names of its scope. -/
def ActiveCall.Forwards (call : ActiveCall) : Prop :=
  call.kind = .command ∧ (call.name = "global" ∨ call.name = "nonlocal")

/-- Whether names may be forwarded with the event. -/
def Event.Forwards : Event → Prop
  | .handler call => call.Forwards
  | _ => False

instance (call : ActiveCall) : Decidable call.Forwards :=
  inferInstanceAs (Decidable (_ ∧ _))

instance : (event : Event) → Decidable event.Forwards
  | .handler call => inferInstanceAs (Decidable call.Forwards)
  | .step _ => .isFalse id
  | .definition _ => .isFalse id

/-- Nothing has forwarded a name. -/
def State.Quiet (s : State (Recorded σ)) : Prop :=
  ∀ moment ∈ s.host.moments, ¬ moment.event.Forwards

namespace Evaluation

/-- If nothing has forwarded a name at the end, nothing had at the start, and the scopes still are
as the invariant says. -/
def Preserves (invariant : ScopeStack → Prop) : Relation (Recorded σ) (Recorded σ) := fun _ x _ =>
  ∀ s result s', x s = some (result, s') → s'.Quiet →
    s.Quiet ∧ (invariant s.context.scopes → invariant s'.context.scopes)

namespace Preserves

variable {invariant : ScopeStack → Prop}

/-- Evaluations in turn preserve what each of them does. -/
lemma bind {x y : Evaluation (Recorded σ) α} {f g : α → Evaluation (Recorded σ) β}
    (hx : Preserves invariant x y) (hf : ∀ value, Preserves invariant (f value) (g value)) :
    Preserves invariant (x >>= f) (y >>= g) := by
  intro s result s' e quiet
  rcases bind_cases e with ⟨value, s₁, first, rest⟩ | ⟨error, first, rfl⟩
  · obtain ⟨quiet₁, kept₁⟩ := hf value _ _ _ rest quiet
    obtain ⟨quiet₀, kept₀⟩ := hx _ _ _ first quiet₁
    exact ⟨quiet₀, kept₁ ∘ kept₀⟩
  · exact hx _ _ _ first quiet

/-- A value preserves everything. -/
lemma pure (value : α) : Preserves (σ := σ) invariant (Pure.pure value) (Pure.pure value) := by
  intro s result s' e quiet
  cases e
  exact ⟨quiet, id⟩

/-- So does an error. -/
lemma raise (error : RuntimeError) :
    Preserves (σ := σ) (α := α) invariant (Evaluation.raise error) (Evaluation.raise error) := by
  intro s result s' e quiet
  cases e
  exact ⟨quiet, id⟩

/-- Values and errors preserve everything, and evaluations in turn what each of them does. -/
lemma monadic : Relation.Monadic (Preserves (σ := σ) invariant) where
  pure := pure
  raise := raise
  bind := bind
  context hf s := hf s.context s

/-- A change of the context preserves what it keeps of the scopes. -/
lemma modify {change : Context → Context}
    (keeps : ∀ c, invariant c.scopes → invariant (change c).scopes) :
    Preserves (σ := σ) invariant (Evaluation.modify change) (Evaluation.modify change) := by
  intro s result s' e quiet
  cases e
  exact ⟨quiet, keeps s.context⟩

/-- A note preserves the scopes. -/
lemma notify (it : Interpreter σ) (event : Event) :
    Preserves invariant (Evaluation.notify it.recorded.observe event)
      (Evaluation.notify it.recorded.observe event) := by
  intro s result s' e quiet
  cases e
  exact ⟨fun moment mem => quiet moment (List.mem_append_left _ mem), id⟩

/-- An action preserves what its changes keep. -/
lemma acting (invariant : ScopeStack → Prop) {allowed : Update → Prop}
    (keeps : ∀ change, allowed change → ∀ c : Context, invariant c.scopes →
      invariant (c.update change).scopes) :
    Relation.Acting (Preserves (σ := σ) invariant) allowed where
  inside := monadic
  update may := modify (keeps _ may)
  read hf s := hf s.host.host s
  write host _ _ h s result s' e := h { s with host := { s.host with host := host } } result s' e
  starve _ _ _ _ h := nomatch h

/-- Whatever is preserved, no name is forwarded unnoticed. -/
lemma quiet {x y : Evaluation (Recorded σ) α} (h : Preserves invariant x y) :
    Preserves (fun _ => True) x y :=
  fun s result s' e quiet => ⟨(h s result s' e quiet).1, fun _ => trivial⟩

end Preserves

/-- In a call with any number of frames above it, and so many more, the evaluation leaves the frames
below the call sealed. -/
def Isolates (sealed : List Frame) (more : Nat) : Relation (Recorded σ) (Recorded σ) := fun _ x y =>
  ∀ above, Preserves (ScopeStack.Sealed sealed (above + more)) x y

namespace Isolates

variable {sealed : List Frame} {more : Nat}

/-- Values and errors isolate, and so do evaluations in turn. -/
lemma monadic : Relation.Monadic (Isolates (σ := σ) sealed more) where
  pure value _ := Preserves.pure value
  raise error _ := Preserves.raise error
  bind hx hf above := (hx above).bind fun value => hf value above
  context hf above s := hf s.context above s

/-- What is done around a call isolates the frames below the call that is sealed. -/
lemma framed (sealed : List Frame) (more : Nat) (it : Interpreter σ) :
    Relation.Framed (Isolates sealed 0) (Isolates sealed more) it.recorded it.recorded where
  outside := monadic.toSequential
  inside := monadic.toSequential
  fail fault := monadic.raise (.ofFault fault)
  enter h above := h (above + more)
  notify event _ := Preserves.notify it event
  passage h _ := Preserves.modify fun _ => h.sealed

/-- The frame of a call within the call is left again. -/
lemma inFrame {x y : Evaluation (Recorded σ) α} (h : Isolates sealed 1 x y) (call : ActiveCall)
    (owns : Bool) :
    Isolates sealed 0 (inFrame (.ofCall call owns) x)
      (Evaluation.inFrame (.ofCall call owns) y) := by
  intro above s result s' e quiet
  obtain ⟨inner, s₁, e₁, rfl, -⟩ := inFrame_cases e
  obtain ⟨quiet₀, kept⟩ := h above _ _ _ e₁ quiet
  exact ⟨quiet₀, fun before => (kept (before.push call owns)).pop⟩

/-- An action that forwards nothing isolates. -/
lemma acting : Relation.Acting (Isolates (σ := σ) sealed 1) fun change => ¬ change.Forwards where
  inside := monadic
  update keeps _ := Preserves.modify fun _ h => Context.sealed_update h keeps
  read hf above s := hf s.host.host above s
  write host _ _ h above s result s' e :=
    h above { s with host := { s.host with host := host } } result s' e
  starve _ _ _ _ _ h := nomatch h

end Isolates

end Evaluation

/-- Of the standard handlers, only those that say so forward names. -/
lemma MadeBy.not_forwards {call : ActiveCall} (keeps : ¬ call.Forwards) {change : Update}
    (made : MadeBy call.kind call.name change) : ¬ change.Forwards := by
  intro forwards
  cases change with
  | declareGlobal name =>
    obtain ⟨kind, name⟩ := Prod.mk.inj (List.mem_singleton.1 made)
    exact keeps ⟨kind, .inl name⟩
  | declareNonlocal name =>
    obtain ⟨kind, name⟩ := Prod.mk.inj (List.mem_singleton.1 made)
    exact keeps ⟨kind, .inr name⟩
  | _ => exact forwards

open Evaluation

namespace Interpreter

variable {it : Interpreter σ} {random : Slot σ γ} {streams : Slot σ Streams}
  {sealed : List Frame}

/-- A handler that forwards names is noticed, and another one cannot do it. -/
lemma handle_isolates {handler : Handler σ} {kind : CallKind}
    (standard : Standard random streams kind handler)
    {run : Node Token → Evaluation (Recorded σ) Unit} {expand : Expand (Recorded σ)}
    (runs : ∀ node, Isolates sealed 0 (run node) (run node))
    (expands : ∀ origin name args,
      Isolates sealed 0 (expand origin name args) (expand origin name args))
    (rounds : Nat) (site : CallSite) {call : ActiveCall} (same : call.kind = kind) :
    Isolates sealed 1 (it.recorded.handle run expand rounds site call handler.recorded)
      (it.recorded.handle run expand rounds site call handler.recorded) := by
  subst same
  have framed := Isolates.framed sealed 1 it
  have bodies := runBody_rel framed runs site call.name
  have rereads := Word.arguments_rel framed.outside expands site.args
  have orderly := (standard.plain ⟨call, site.node, site.body⟩).orderly
  by_cases forwards : call.Forwards
  · have acts := ofAction_rel (Preserves.acting (fun _ => True) fun _ _ _ _ => trivial)
      (bodies 0).quiet (rereads 0).quiet (Nat.le_refl rounds) orderly
    -- whatever the handler does, its call was told of before
    intro above s result s' e quiet
    have noticed := (acts (it.note (.handler call) s) _ _ e quiet).1
    exact absurd forwards (noticed _ (List.mem_append_right _ (List.mem_singleton.2 rfl)))
  · refine handle_rel framed (ofAction_rel Isolates.acting bodies
      (framed.enter rereads) (Nat.le_refl rounds) ?_)
    exact orderly.mono fun change made => MadeBy.not_forwards forwards made

/-- All that happens within the call leaves the frames below it sealed. -/
lemma run_isolates (uses : it.Uses (Standard random streams)) (sealed : List Frame) (fuel : Nat) :
    (∀ node, Isolates sealed 0 (it.recorded.runNode fuel node) (it.recorded.runNode fuel node)) ∧
      ∀ origin name args, Isolates sealed 0 (it.recorded.expand fuel origin name args)
        (it.recorded.expand fuel origin name args) := by
  have framed := Isolates.framed sealed 1 it
  have all := run_rel it.recorded it.recorded framed.outside 0 ?_ ?_ ?_ ?_ fuel
  · rwa [Nat.zero_add] at all
  · refine step_rel framed.outside rfl (fun above => ?_) fun event above => ?_
    · exact Preserves.modify fun _ h => h
    · exact Preserves.notify it event
  · intro above
    exact Preserves.modify fun c h => h.modifyTop (f := Frame.countStatement) fun frame => rfl
  · intro fuel runs expands site name args
    rw [Nat.zero_add] at runs expands ⊢
    refine serve_rel framed.outside rfl fun definition => Isolates.inFrame ?_ _ _
    refine dispatch_rel framed runs definition (handlers_rel uses fun handler standard => ?_)
    exact handle_isolates standard runs expands fuel site rfl
  · exact ⟨fun _ _ _ _ _ h => (nomatch h), fun _ _ _ _ _ _ _ h => (nomatch h)⟩

/-- A call of a definition changes no frame below its own, however it ends, if no name is forwarded
while it is in progress. -/
theorem definitions_are_isolated (uses : it.Uses (Standard random streams)) (fuel : Nat)
    (definition : Definition) (call : ActiveCall) (s : State σ)
    {result : Except RuntimeError (Option String)} {s' : State σ} :
    let entered := withScopes (·.push (.ofCall call true)) s
    runDefinition (it.runNode fuel) definition call.args entered = some (result, s') →
      (∀ moment ∈ (runDefinition (it.recorded.runNode fuel) definition call.args).momentsFrom entered,
        ¬ moment.event.Forwards) →
      s'.context.scopes.below = s.context.scopes.toList := by
  intro entered ends quiet
  have records := runDefinition_rel (Forgets.framed it) (it.run_forgets fuel).1 definition call.args
  have isolates := runDefinition_rel (Isolates.framed s.context.scopes.toList 0 it)
    (run_isolates uses s.context.scopes.toList fuel).1 definition call.args
  have recorded := records.exists_recorded ends
  obtain ⟨_, sealed⟩ := isolates 0 _ _ _ recorded quiet
  exact (sealed (.enter _ call)).below

/-- A definition whose body sets a variable that its caller may have as well. -/
def assignment : Definition :=
  ⟨"assign", .command, ["value"], none,
    .command (.literal default "set") [.literal default "x", .reference default (.literal default "value")]⟩

/-- The variable of the caller keeps its value. -/
theorem assignment_isolated :
    let call : ActiveCall := ⟨"assign", .command, ["1"], .origin⟩
    let caller := Context.initial.update (.set "x" "0")
    ∃ s', runDefinition (Console.interpreter.runNode 2) assignment call.args
        (withScopes (·.push (.ofCall call true)) ⟨caller, Console.start [] 0⟩) = some (.ok none, s') ∧
      s'.context.scopes.below = caller.scopes.toList := by
  intro call caller
  refine ⟨_, rfl, ?_⟩
  exact definitions_are_isolated Console.interpreter_uses 2 assignment call
    ⟨caller, Console.start [] 0⟩ rfl (by decide)

end Interpreter

end Scriptlet
