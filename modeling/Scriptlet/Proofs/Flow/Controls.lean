import Scriptlet.Proofs.Flow.Course
import Scriptlet.Proofs.Library.Confined

/-!
# Loops and choices on the way out

Every control call heeds the way on which its body ends: no loop starts another round, and nothing
is left to do but to forget the variable of a loop. A call that runs nothing stays in its mode,
unless it is a `return` or a `stop`.
-/

namespace Scriptlet

open Evaluation

variable {σ α β : Type} {ceiling : Nat} {start : Mode} {ends ends' : Mode → Prop}

/-- What a handler can have evaluated. -/
structure Parts (σ : Type) where
  body : Evaluation (Recorded σ) Unit
  arguments : Evaluation (Recorded σ) (List String)
  rounds : Nat

/-- Bodies and arguments start in a mode in which words are evaluated, and arguments end in one. -/
structure Parts.Orderly (ceiling : Nat) (parts : Parts σ) : Prop where
  body : ∀ mode : Mode, mode.Reading → Carries ceiling mode (fun _ => True) parts.body
  arguments : ∀ mode : Mode, mode.Reading → Carries ceiling mode Mode.Reading parts.arguments

/-- With these parts, carrying out the action goes on from the first mode to one of the others. -/
def Parts.Heeds (ceiling : Nat) (parts : Parts σ) (start : Mode) (ends : Mode → Prop)
    (action : Action σ α) : Prop :=
  Carries ceiling start ends
    (ofAction parts.body parts.arguments parts.rounds action.recorded)

namespace Parts.Heeds

variable {parts : Parts σ} {action : Action σ α}

/-- An answer ends where the action is. -/
lemma pure (answer : α) (now : ends start) : parts.Heeds ceiling start ends (Pure.pure answer) :=
  Carries.pure answer now

/-- The second action goes on from where the first has ended. -/
lemma bind {next : α → Action σ β} (reading : ∀ mode, ends mode → mode.Reading → ends' mode)
    (h : parts.Heeds ceiling start ends action)
    (rest : ∀ value mode, ends mode → parts.Heeds ceiling mode ends' (next value)) :
    parts.Heeds ceiling start ends' (action >>= next) := by
  rw [Heeds, Action.recorded_bind, ofAction_bind]
  exact Carries.bind reading h rest

/-- What comes behind an action, however that ends. -/
lemma anyway {next : α → Action σ β} (h : parts.Heeds ceiling start (fun _ => True) action)
    (rest : ∀ value mode, parts.Heeds ceiling mode (fun _ => True) (next value)) :
    parts.Heeds ceiling start (fun _ => True) (action >>= next) :=
  h.bind (fun _ _ _ => trivial) fun value mode _ => rest value mode

/-- What comes behind an action that runs nothing. -/
lemma still {next : α → Action σ β} (h : parts.Heeds ceiling .running (· = .running) action)
    (rest : ∀ value, parts.Heeds ceiling .running (fun _ => True) (next value)) :
    parts.Heeds ceiling .running (fun _ => True) (action >>= next) := by
  refine h.bind (fun _ _ _ => trivial) fun value mode stays => ?_
  subst stays
  exact rest value

/-- A fault ends a running action. -/
lemma fail (fault : Fault) (now : ends .running) :
    parts.Heeds ceiling .running ends (Action.fail fault : Action σ α) :=
  Carries.raise (.ofFault fault) now

/-- An answer that may be a fault leaves a running action running. -/
lemma ofExcept (result : Except Fault α) :
    parts.Heeds ceiling .running (· = .running) (Action.ofExcept result) := by
  cases result with
  | ok answer => exact .pure answer rfl
  | error fault => exact .fail fault rfl

/-- A change that ends nothing leaves an action where it is. -/
lemma change {change : Update} (stays : ¬ change.Ends) (now : ends start) :
    parts.Heeds ceiling start ends (Action.change change) :=
  fun s at_start result s' e => Carries.update now stays s at_start result s' e

/-- The body of the call, in whatever mode it ends. -/
lemma body (orderly : parts.Orderly ceiling) (reading : start.Reading) :
    parts.Heeds ceiling start (fun _ => True) Action.body := by
  show Carries ceiling start _ (attempt parts.body >>= fun result => _)
  rw [attempt_bind fun error => rfl]
  exact (orderly.body start reading).bind (fun _ _ _ => trivial) fun _ _ _ => Carries.pure () trivial

/-- To evaluate the arguments again leaves the mode a reading one. -/
lemma arguments (orderly : parts.Orderly ceiling) (reading : start.Reading) :
    parts.Heeds ceiling start Mode.Reading Action.arguments := by
  show Carries ceiling start _ (attempt parts.arguments >>= fun result => _)
  rw [attempt_bind fun error => rfl]
  exact (orderly.arguments start reading).bind (fun _ reached _ => reached) fun _ _ reached =>
    Carries.pure _ reached

/-- A call that asks whether execution is on its way out knows the mode. -/
lemma interrupted {next : Bool → Action σ β}
    (goes_on : start = .running → parts.Heeds ceiling .running ends (next false))
    (gives_up : start ≠ .running → parts.Heeds ceiling start ends (next true)) :
    parts.Heeds ceiling start ends (Action.interrupted >>= next) := by
  show Carries ceiling start ends (context >>= fun c => _)
  refine .context fun c flow => ?_
  show Carries ceiling start ends (ofAction _ _ _ (next c.isInterrupted).recorded)
  rw [Context.isInterrupted, flow]
  cases start with
  | running => exact goes_on rfl
  | leaving result => exact gives_up (by simp)
  | halting => exact gives_up (by simp)
  | fading => exact gives_up (by simp)

/-- What looks at the chain around the call. -/
lemma chainOpen {next : Bool → Action σ β}
    (rest : ∀ isOpen, parts.Heeds ceiling start ends (next isOpen)) :
    parts.Heeds ceiling start ends (Action.chainOpen >>= next) := by
  show Carries ceiling start ends (context >>= fun c => _)
  exact .context fun c _ => rest _

/-- An action that runs nothing and makes no change that sends execution anywhere. -/
lemma of_confined {same : Context → Context → Prop} {allowed : Update → Prop}
    (stays : ∀ change, allowed change → ¬ change.Ends) (h : action.Confined same allowed False) :
    parts.Heeds ceiling .running (· = .running) action := by
  have still : ∀ mode : Mode, mode = .running → mode.Reading → mode = .running :=
    fun _ running _ => running
  induction h with
  | done answer => exact .pure answer rfl
  | raise error => exact Carries.raise error rfl
  | inspect _ _ ih => exact Carries.context fun c _ => ih c
  | update may _ ih =>
    refine Carries.bind still (Carries.update rfl (stays _ may)) fun _ mode running => ?_
    subst running
    exact ih
  | readHost _ ih => exact fun s => ih s.host.host s
  | writeHost host _ ih =>
    intro s at_start result s' e
    obtain ⟨last, ended, goes⟩ := ih { s with host := { s.host with host := host } }
      ⟨at_start.flow, at_start.results⟩ result s' e
    exact ⟨last, ended, goes.shape, goes.flow, goes.happened, goes.results, goes.permits⟩
  | runBody may _ _ => exact may.elim
  | rereadArgs may _ _ => exact may.elim
  | rounds _ ih => exact ih parts.rounds
  | exhausted => exact fun s _ result s' e => nomatch e

end Parts.Heeds

namespace Library

variable {parts : Parts σ}

/-- A definition heeds where execution goes. -/
lemma define_heeds (call : Call) : parts.Heeds ceiling .running (fun _ => True) (define call) := by
  refine .still (.ofExcept _) fun _ => ?_
  dsimp only
  split
  · exact .still (.fail _ rfl) fun _ => .pure _ trivial
  · refine .still (.ofExcept _) fun definition => ?_
    exact .still (.change id rfl) fun _ => .pure _ trivial

section

variable (orderly : parts.Orderly ceiling)
include orderly

/-- A loop takes no further round once execution is on its way out. -/
lemma repeatBody_heeds (times : Nat) :
    parts.Heeds ceiling .running (fun _ => True) (repeatBody times) := by
  induction times with
  | zero => exact .pure () trivial
  | succ times ih =>
    refine .anyway (.body orderly (.inl rfl)) fun _ mode => .interrupted (fun _ => ?_) fun _ => ?_
    · exact ih
    · exact .pure () trivial

/-- A counted loop heeds where execution goes. -/
lemma repeatTimes_heeds (call : Call) :
    parts.Heeds ceiling .running (fun _ => True) (repeatTimes call) :=
  .still (.ofExcept _) fun _ => .still (.ofExcept _) fun _ =>
    .anyway (repeatBody_heeds orderly _) fun _ _ => .pure _ trivial

/-- The rounds of a loop over items heed where execution goes. -/
lemma forItems_heeds (name : String) (items : List String) :
    parts.Heeds ceiling .running (fun _ => True) (forItems name items) := by
  induction items with
  | nil => exact .pure () trivial
  | cons item items ih =>
    refine .still (.change id rfl) fun _ => .anyway (.body orderly (.inl rfl)) fun _ mode => ?_
    refine .interrupted (fun _ => ?_) fun _ => ?_
    · exact ih
    · exact .pure () trivial

/-- The variable of a loop is forgotten on every way out. -/
lemma forIn_heeds (call : Call) : parts.Heeds ceiling .running (fun _ => True) (forIn call) := by
  refine .still (.ofExcept _) fun _ => ?_
  dsimp only
  split
  · split
    · refine .anyway (forItems_heeds orderly _ _) fun _ mode => ?_
      exact .anyway (.change id trivial) fun _ _ => .pure _ trivial
    · exact .still (.fail _ rfl) fun _ => .pure _ trivial
  · exact .pure _ trivial

/-- A choice heeds where execution goes. -/
lemma choose_heeds (condition : String) :
    parts.Heeds ceiling .running (fun _ => True) (choose condition) := by
  refine .still (.change id rfl) fun _ => ?_
  split
  · exact .body orderly (.inl rfl)
  · exact .pure () trivial

/-- An `if` heeds where execution goes. -/
lemma ifTrue_heeds (call : Call) : parts.Heeds ceiling .running (fun _ => True) (ifTrue call) :=
  .still (.ofExcept _) fun _ => .still (.ofExcept _) fun condition =>
    .anyway (choose_heeds orderly condition) fun _ _ => .pure _ trivial

/-- An `elif` heeds where execution goes. -/
lemma elseIf_heeds (call : Call) : parts.Heeds ceiling .running (fun _ => True) (elseIf call) := by
  refine .still (.ofExcept _) fun _ => Parts.Heeds.chainOpen fun isOpen => ?_
  cases isOpen with
  | true =>
    refine .still (.ofExcept _) fun condition => ?_
    exact .anyway (choose_heeds orderly condition) fun _ _ => .pure _ trivial
  | false => exact .pure _ trivial

/-- An `else` heeds where execution goes. -/
lemma otherwise_heeds (call : Call) :
    parts.Heeds ceiling .running (fun _ => True) (otherwise call) := by
  refine .still (.ofExcept _) fun _ => Parts.Heeds.chainOpen fun isOpen => ?_
  cases isOpen with
  | true =>
    refine .still (.change id rfl) fun _ => ?_
    exact .anyway (.body orderly (.inl rfl)) fun _ _ => .pure _ trivial
  | false => exact .pure _ trivial

/-- A `stop` in the condition does not keep the body from one more round, in which nothing is
called. -/
lemma whileRounds_heeds (rounds : Nat) (condition : String) {mode : Mode} (reading : mode.Reading) :
    parts.Heeds ceiling mode (fun _ => True) (whileRounds rounds condition) := by
  induction rounds generalizing mode condition with
  | zero =>
    rw [whileRounds]
    split
    · intro s _ result s' e
      cases e
    · exact .pure () trivial
  | succ rounds ih =>
    rw [whileRounds]
    split
    · refine .anyway (.body orderly reading) fun _ mode => .interrupted (fun _ => ?_) fun _ => ?_
      · refine .bind (fun _ _ _ => trivial) (.arguments orderly (.inl rfl)) fun args mode reached => ?_
        exact ih _ reached
      · exact .pure () trivial
    · exact .pure () trivial

/-- A loop on a condition heeds where execution goes. -/
lemma whileTrue_heeds (call : Call) :
    parts.Heeds ceiling .running (fun _ => True) (whileTrue call) := by
  refine .still (.ofExcept _) fun _ => .still (.ofExcept _) fun condition => ?_
  refine .anyway ?_ fun _ _ => .pure _ trivial
  exact whileRounds_heeds orderly parts.rounds condition (.inl rfl)

/-- Every control call of the base library heeds the way on which its body ends. -/
lemma controls_heed (call : Call) :
    parts.Heeds ceiling .running (fun _ => True) (controls.toHandler.invoke call) := by
  refine Callbacks.invoke_of_each (fun fault => .fail fault trivial) fun callback found => ?_
  have registered := Table.mem_of_get?_ofList found
  simp only [List.mem_cons, Prod.mk.injEq, List.not_mem_nil, or_false] at registered
  rcases registered with ⟨-, rfl⟩ | ⟨-, rfl⟩ | ⟨-, rfl⟩ | ⟨-, rfl⟩ | ⟨-, rfl⟩ | ⟨-, rfl⟩ | ⟨-, rfl⟩
  · exact repeatTimes_heeds orderly call
  · exact forIn_heeds orderly call
  · exact ifTrue_heeds orderly call
  · exact elseIf_heeds orderly call
  · exact otherwise_heeds orderly call
  · exact whileTrue_heeds orderly call
  · exact define_heeds call

end

end Library

end Scriptlet
