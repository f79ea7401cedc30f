import Scriptlet.Proofs.Library.Standard

/-!
# What the base library looks at

A confined action answers alike in contexts between which it cannot tell, makes allowed changes only,
and may have to run nothing. The calls of the base library and of the standard streams cannot tell
contexts apart that look alike, except that control calls look at the else-chain of the frame around
them, and only control calls run anything (`Standard.confined`).
-/

namespace Scriptlet

variable {σ α β γ : Type} [RandomSource γ]

namespace Action

/-- The action depends on the context only as far as the relation goes, makes allowed changes only,
and runs the body or the arguments of its call only if it may. -/
inductive Confined (same : Context → Context → Prop) (allowed : Update → Prop) (runs : Prop) :
    Action σ α → Prop
  | done (answer : α) : Confined same allowed runs (.done answer)
  | raise (error : RuntimeError) : Confined same allowed runs (.raise error)
  | inspect {rest : Context → Action σ α} :
    (∀ c c', same c c' → rest c = rest c') →
    (∀ c, Confined same allowed runs (rest c)) →
    Confined same allowed runs (.inspect rest)
  | update {change : Update} {rest : Action σ α} :
    allowed change →
    Confined same allowed runs rest →
    Confined same allowed runs (.update change rest)
  | readHost {rest : σ → Action σ α} :
    (∀ host, Confined same allowed runs (rest host)) →
    Confined same allowed runs (.readHost rest)
  | writeHost (host : σ) {rest : Action σ α} :
    Confined same allowed runs rest →
    Confined same allowed runs (.writeHost host rest)
  | runBody {rest : Option RuntimeError → Action σ α} :
    runs →
    (∀ error, Confined same allowed runs (rest error)) →
    Confined same allowed runs (.runBody rest)
  | rereadArgs {rest : Except RuntimeError (List String) → Action σ α} :
    runs →
    (∀ args, Confined same allowed runs (rest args)) →
    Confined same allowed runs (.rereadArgs rest)
  | rounds {rest : Nat → Action σ α} :
    (∀ n, Confined same allowed runs (rest n)) →
    Confined same allowed runs (.rounds rest)
  | exhausted : Confined same allowed runs .exhausted

namespace Confined

variable {same : Context → Context → Prop} {allowed : Update → Prop} {runs : Prop}

/-- Less may be told apart, and more may be changed and run. -/
lemma mono {same' : Context → Context → Prop} {allowed' : Update → Prop} {runs' : Prop}
    (less : ∀ c c', same' c c' → same c c') (imp : ∀ change, allowed change → allowed' change)
    (may : runs → runs') {action : Action σ α} (h : action.Confined same allowed runs) :
    action.Confined same' allowed' runs' := by
  induction h with
  | done answer => exact .done answer
  | raise error => exact .raise error
  | inspect alike _ ih => exact .inspect (fun c c' seen => alike c c' (less c c' seen)) ih
  | update change _ ih => exact .update (imp _ change) ih
  | readHost _ ih => exact .readHost ih
  | writeHost host _ ih => exact .writeHost host ih
  | runBody run _ ih => exact .runBody (may run) ih
  | rereadArgs run _ ih => exact .rereadArgs (may run) ih
  | rounds _ ih => exact .rounds ih
  | exhausted => exact .exhausted

/-- What both parts are confined to, the action is. -/
lemma bind {action : Action σ α} {next : α → Action σ β} (h : action.Confined same allowed runs)
    (rest : ∀ value, (next value).Confined same allowed runs) :
    (action >>= next).Confined same allowed runs := by
  induction h with
  | done answer => exact rest answer
  | raise error => exact .raise error
  | inspect alike _ ih =>
    exact .inspect (fun c c' seen => congrArg (Action.andThen next) (alike c c' seen)) ih
  | update may _ ih => exact .update may ih
  | readHost _ ih => exact .readHost ih
  | writeHost host _ ih => exact .writeHost host ih
  | runBody may _ ih => exact .runBody may ih
  | rereadArgs may _ ih => exact .rereadArgs may ih
  | rounds _ ih => exact .rounds ih
  | exhausted => exact .exhausted

/-- An answer is confined to anything. -/
lemma pure (answer : α) : (Pure.pure answer : Action σ α).Confined same allowed runs :=
  .done answer

/-- A fault is confined to anything. -/
lemma fail (fault : Fault) : (Action.fail fault : Action σ α).Confined same allowed runs :=
  .raise (.ofFault fault)

/-- An answer that may be a fault is confined to anything. -/
lemma ofExcept (result : Except Fault α) :
    (Action.ofExcept result : Action σ α).Confined same allowed runs := by
  cases result with
  | ok answer => exact .pure answer
  | error fault => exact .fail fault

/-- An allowed change stays within bounds. -/
lemma change {change : Update} (may : allowed change) :
    (Action.change change : Action σ Unit).Confined same allowed runs :=
  .update may (.done ())

/-- The body may be run where running is allowed. -/
lemma body (may : runs) : (Action.body : Action σ Unit).Confined same allowed runs := by
  refine .runBody may fun error => ?_
  cases error with
  | none => exact .done ()
  | some error => exact .raise error

/-- The arguments may be evaluated again where running is allowed. -/
lemma arguments (may : runs) :
    (Action.arguments : Action σ (List String)).Confined same allowed runs := by
  refine .rereadArgs may fun args => ?_
  cases args with
  | ok args => exact .done args
  | error error => exact .raise error

/-- Using a part of the state of the host is confined. -/
lemma use {τ ρ : Type} (slot : Slot σ τ) (f : τ → ρ × τ) :
    (slot.use f).Confined same allowed runs :=
  .readHost fun _ => .readHost fun _ => .writeHost _ (.done _)

end Confined

end Action

/-- The action is confined as those of calls of this kind and name are. -/
abbrev Action.ConfinedAs (kind : CallKind) (name : String) (action : Action σ α) : Prop :=
  action.Confined (Context.SameFor kind name) (MadeBy kind name) (kind = .control)

/-- However many rounds it is given, the loop asks nothing of the contexts but whether execution is on
its way out, and makes no changes by itself. -/
lemma Library.whileRounds_confined {name : String} (rounds : Nat) (condition : String) :
    (whileRounds rounds condition : Action σ _).ConfinedAs .control name := by
  induction rounds generalizing condition with
  | zero =>
    rw [whileRounds]
    split
    · exact .exhausted
    · exact .pure ()
  | succ rounds ih =>
    rw [whileRounds]
    split
    · refine .bind (.body rfl) fun _ => .inspect (fun c c' same => ?_) fun c => ?_
      · dsimp only [Action.andThen]
        rw [same.looks.isInterrupted]
      · show Action.ConfinedAs _ _ (if c.isInterrupted then _ else _)
        split
        · exact .pure ()
        · exact .bind (.arguments rfl) fun args => ih _
    · exact .pure ()

/-- Being confined is a matter of the steps. -/
lemma Action.Confined.stepwise (kind : CallKind) (name : String) :
    Property.Stepwise (σ := σ) kind name fun _ action => action.ConfinedAs kind name where
  pure := .pure
  fail := .fail
  bind := .bind
  inspect := .inspect
  change := .change
  use := .use
  body := .body
  loop condition control := by
    subst control
    exact .rounds fun n => Library.whileRounds_confined n condition

/-- Every call of the base library and of the standard streams is confined: it cannot tell contexts
apart that are the same for its kind, and runs nothing unless it is a control call. -/
theorem Standard.confined {random : Slot σ γ} {streams : Slot σ Streams} {kind : CallKind}
    {handler : Handler σ} (h : Standard random streams kind handler) (call : Call) :
    (handler.invoke call).ConfinedAs kind call.name :=
  h.steps Action.Confined.stepwise call

end Scriptlet
