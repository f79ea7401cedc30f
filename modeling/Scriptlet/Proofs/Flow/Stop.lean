import Scriptlet.Proofs.Flow.Serving

/-!
# The end of a stopped run

A run in which a `stop` is executed is stopped at its end, and no handler and no definition is called
behind the `stop`. Unless the `stop` is in an expansion it ends the run at once and well. Around an
expansion, the words that are left are evaluated still, and so a stopped run can fail with what words
fail with: a variable that is not there, or a call whose name is empty.
-/

namespace Scriptlet

open Evaluation

variable {σ γ : Type} [RandomSource γ] {random : Slot σ γ} {streams : Slot σ Streams}

/-- It happens within an expansion. -/
def Moment.Expanding (moment : Moment) : Prop :=
  ∃ call ∈ moment.context.scopes.backtrace, call.kind = .expansion

namespace Interpreter

variable {it : Interpreter σ}

/-- Behind a `stop` the run is stopped and only takes steps. It ends well, except that behind a
`stop` in an expansion the rest of a word may fail; behind any other `stop` nothing happens. -/
theorem stop_ends_run (uses : it.Uses (Standard random streams)) {node : Node Token} {s s' : State σ}
    {result : Except RuntimeError Unit} {earlier later : List Moment} {moment : Moment}
    (ran : it.runPiece node s = some (result, s'))
    (happened : it.moments node s = earlier ++ moment :: later) (stops : moment.Stops) :
    s'.context.isStopped ∧ (∀ after ∈ later, after.IsStep) ∧
      (∀ error, result = .error error →
        moment.Expanding ∧ error.fault.Late it.limits.maxSteps) ∧
      (¬ moment.Expanding → result = .ok () ∧ later = []) := by
  obtain ⟨last, trail, flow, permits⟩ := runPiece_trail uses ran
  rw [happened] at trail
  obtain ⟨stopped, steps, halts⟩ := trail.behind_stop stops
  have at_once : ¬ moment.Expanding → last = .halting ∧ later = [] := by
    intro outside
    exact halts fun call mem expansion => outside ⟨call, mem, expansion⟩
  refine ⟨?_, steps, ?_, ?_⟩
  · rw [Context.isStopped, flow, stopped]
    rfl
  · rintro error rfl
    rcases permits with rfl | ⟨rfl, late⟩
    · cases stopped
    · refine ⟨Classical.byContradiction fun outside => ?_, late⟩
      cases (at_once outside).1
  · intro outside
    obtain ⟨rfl, silent⟩ := at_once outside
    refine ⟨?_, silent⟩
    cases result with
    | ok value => rfl
    | error error => rcases permits with running | ⟨fading, -⟩ <;> contradiction

/-- A script that stops before a call that nothing serves. -/
def stopping : Node Token :=
  .script [.command (.literal default "stop") [], .command (.literal default "lost") []]

/-- What is behind the `stop` is not called, so nothing fails. -/
theorem stopping_ends :
    let it := Console.interpreter.withLimits ⟨0, 0, 0⟩
    ∃ s' earlier moment, it.runPiece stopping ⟨.initial, Console.start [] 0⟩ = some (.ok (), s') ∧
      it.moments stopping ⟨.initial, Console.start [] 0⟩ = earlier ++ [moment] ∧ moment.Stops ∧
      s'.context.isStopped := by
  intro it
  have uses : it.Uses (Standard Console.generator Console.streams) := Console.interpreter_uses
  let start : State Console.Host := ⟨.initial, Console.start [] 0⟩
  obtain ⟨s', ran⟩ : ∃ s', it.runPiece stopping start = some (.ok (), s') := ⟨_, rfl⟩
  obtain ⟨root, step, moment, happened, stops⟩ : ∃ root step moment,
      it.moments stopping start = [root, step] ++ [moment] ∧ moment.Stops :=
    ⟨_, _, _, rfl, _, rfl, rfl, rfl⟩
  obtain ⟨stopped, -⟩ := stop_ends_run uses ran happened stops
  exact ⟨s', [root, step], moment, ran, happened, stops, stopped⟩

/-- A script that calls a command by a name that an expansion was to yield, which stops instead. -/
def stopInName : Node Token :=
  .script
    [.control default (.literal default "def") [.literal default "f"]
      (.block default
        [.command (.literal default "stop") [],
          .command (.literal default "return") [.literal default "x"]]),
      .command (.substitution default (.literal default "f") []) []]

/-- The run is stopped, and fails with the name that is empty now. -/
theorem stopInName_fails :
    let it := Console.interpreter.withLimits ⟨0, 0, 0⟩
    ∃ error s', it.runPiece stopInName ⟨.initial, Console.start [] 0⟩ = some (.error error, s') ∧
      error.fault = .emptyCallName .command ∧ s'.context.isStopped ∧
      ∃ moment ∈ it.moments stopInName ⟨.initial, Console.start [] 0⟩, moment.Stops := by
  intro it
  let start : State Console.Host := ⟨.initial, Console.start [] 0⟩
  have failed : (it.runPiece stopInName start).map
      (fun ended => ((error? ended.1).map RuntimeError.fault, ended.2.context.isStopped)) =
        some (some (.emptyCallName .command), true) := by
    decide +kernel
  have last : (it.moments stopInName start).getLast?.map Moment.event =
      some (.handler ⟨"stop", .command, [], stopInName.start⟩) := by
    decide +kernel
  obtain ⟨moment, is_last, event⟩ := Option.map_eq_some_iff.1 last
  have stops : moment.Stops := ⟨_, event, rfl, rfl⟩
  obtain ⟨⟨_ | value, s'⟩, ran, e⟩ := Option.map_eq_some_iff.1 failed
  · obtain ⟨fault, stopped⟩ := Prod.mk.inj e
    refine ⟨_, s', ran, Option.some.inj fault, stopped, moment, ?_, stops⟩
    exact List.mem_of_getLast? is_last
  · cases e

end Interpreter

end Scriptlet
