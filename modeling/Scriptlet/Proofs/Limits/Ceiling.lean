import Scriptlet.Proofs.Evaluation.Changes
import Scriptlet.Proofs.Library.Standard
import Scriptlet.Proofs.Limits.Fuel

/-!
# The ceiling for steps

Under a ceiling for steps every run has an end. The measure is the fuel: every statement and every
expansion uses one unit up and takes a step, and every round of a loop runs a statement, so what is
left of the fuel and the steps taken make up more than the ceiling at any time (`Halts`). A step
beyond the ceiling is the last thing that happens in a run (`Overrun`).
-/

namespace Scriptlet

variable {σ α β γ : Type} [RandomSource γ] {ceiling fuel : Nat}

namespace State

/-- No step has been taken beyond the ceiling. -/
structure Within (ceiling : Nat) (s : State (Recorded σ)) : Prop where
  steps : s.context.steps ≤ ceiling
  moments : ∀ moment ∈ s.host.moments, moment.context.steps ≤ ceiling

/-- At most one step has been taken beyond the ceiling, and it is the last thing that happened. -/
structure Overrun (ceiling : Nat) (s : State (Recorded σ)) : Prop where
  steps : s.context.steps ≤ ceiling + 1
  moments : ∀ moment ∈ s.host.moments, moment.context.steps ≤ ceiling + 1
  last : ∀ moment ∈ s.host.moments.dropLast, moment.context.steps ≤ ceiling

/-- Below the ceiling nothing has gone beyond it. -/
lemma Within.overrun {s : State (Recorded σ)} (h : s.Within ceiling) : s.Overrun ceiling where
  steps := Nat.le_succ_of_le h.steps
  moments moment mem := Nat.le_succ_of_le (h.moments moment mem)
  last moment mem := h.moments moment ((List.dropLast_subset _ mem))

/-- To be told of something takes no step. -/
lemma Within.note {s : State (Recorded σ)} (h : s.Within ceiling) (it : Interpreter σ)
    (event : Event) : (it.note event s).Within ceiling where
  steps := h.steps
  moments moment mem := by
    rcases List.mem_append.1 mem with before | now
    · exact h.moments moment before
    · obtain rfl := List.mem_singleton.1 now
      exact h.steps

/-- A step is taken that is not beyond the ceiling. -/
lemma Within.takeStep {s : State (Recorded σ)} (h : s.Within ceiling)
    (le : s.context.steps + 1 ≤ ceiling) (it : Interpreter σ) (location : Location) :
    (it.takeStep location s).Within ceiling := by
  apply Within.note
  exact ⟨le, h.moments⟩

/-- A step is taken that may be beyond the ceiling. -/
lemma Within.overrun_takeStep {s : State (Recorded σ)} (h : s.Within ceiling) (it : Interpreter σ)
    (location : Location) : (it.takeStep location s).Overrun ceiling where
  steps := Nat.succ_le_succ h.steps
  moments moment mem := by
    rcases List.mem_append.1 mem with before | now
    · exact Nat.le_succ_of_le (h.moments moment before)
    · obtain rfl := List.mem_singleton.1 now
      exact Nat.succ_le_succ h.steps
  last moment mem := by
    have before : moment ∈ s.host.moments := by
      rwa [Interpreter.takeStep, Interpreter.note, List.dropLast_concat] at mem
    exact h.moments moment before

end State

namespace Evaluation

/-- There is an end: a value after at least so many steps, none of them beyond the ceiling, or an
error after one step beyond it at most. -/
inductive Ends (ceiling least : Nat) : Option (Except RuntimeError α × State (Recorded σ)) → Prop
  | value {value : α} {s : State (Recorded σ)} :
    least ≤ s.context.steps →
    s.Within ceiling →
    Ends ceiling least (some (.ok value, s))
  | failure {error : RuntimeError} {s : State (Recorded σ)} :
    s.Overrun ceiling →
    Ends ceiling least (some (.error error, s))

namespace Ends

/-- What goes on after an end has an end if it has one wherever that has led. -/
lemma bind {x : Evaluation (Recorded σ) α} {f : α → Evaluation (Recorded σ) β}
    {s : State (Recorded σ)} {least least' : Nat} (first : Ends ceiling least (x s))
    (rest : ∀ value s', least ≤ s'.context.steps → s'.Within ceiling →
      Ends ceiling least' (f value s')) : Ends ceiling least' ((x >>= f) s) := by
  generalize e : x s = outcome at first
  cases first with
  | value progressed within =>
    rw [bind_of_ok e]
    exact rest _ _ progressed within
  | failure overrun =>
    rw [bind_of_error e]
    exact .failure overrun

/-- Who made more progress made less. -/
lemma anyway {outcome : Option (Except RuntimeError α × State (Recorded σ))} {least least' : Nat}
    (h : Ends ceiling least outcome) (le : least' ≤ least) : Ends ceiling least' outcome := by
  cases h with
  | value progressed within => exact .value (Nat.le_trans le progressed) within
  | failure overrun => exact .failure overrun

/-- An end is a result and a state. -/
lemma exists_overrun {outcome : Option (Except RuntimeError α × State (Recorded σ))} {least : Nat}
    (h : Ends ceiling least outcome) :
    ∃ result s, outcome = some (result, s) ∧ s.Overrun ceiling ∧
      ∀ value, result = .ok value → s.Within ceiling := by
  cases h with
  | value _ within => exact ⟨_, _, rfl, within.overrun, fun _ _ => within⟩
  | failure overrun => exact ⟨_, _, rfl, overrun, fun _ => nofun⟩

end Ends

/-- With this much fuel for the steps that are left below the ceiling, the evaluation has an end. -/
def Halts (ceiling fuel progress : Nat) (x : Evaluation (Recorded σ) α) : Prop :=
  ∀ s : State (Recorded σ), ceiling < fuel + s.context.steps → s.Within ceiling →
    Ends ceiling (s.context.steps + progress) (x s)

/-- The evaluation has an end, however many steps it takes. -/
abbrev Halting (ceiling fuel : Nat) : Relation (Recorded σ) (Recorded σ) := fun _ x _ =>
  Halts ceiling fuel 0 x

namespace Halts

/-- Who makes progress makes at least none. -/
lemma anyway {x : Evaluation (Recorded σ) α} {progress : Nat} (h : Halts ceiling fuel progress x) :
    Halts ceiling fuel 0 x :=
  fun s left within => (h s left within).anyway (Nat.le_add_right _ _)

/-- The progress of both parts adds up. -/
lemma bind {x : Evaluation (Recorded σ) α} {f : α → Evaluation (Recorded σ) β} {m n : Nat}
    (hx : Halts ceiling fuel m x) (hf : ∀ value, Halts ceiling fuel n (f value)) :
    Halts ceiling fuel (m + n) (x >>= f) := by
  intro s left within
  refine (hx s left within).bind fun value s' progressed within' => ?_
  exact (hf value s' (by omega) within').anyway (by omega)

/-- That evaluations halt is handed on through their parts. -/
lemma monadic : Relation.Monadic (Halting (σ := σ) ceiling fuel) where
  pure _ _ _ within := .value (Nat.le_refl _) within
  raise _ _ _ within := .failure within.overrun
  bind := bind
  context hf s := hf s.context s

/-- A frame around it does not keep an evaluation from its end. -/
lemma inFrame {x : Evaluation (Recorded σ) α} (frame : Frame) (h : Halts ceiling fuel 0 x) :
    Halts ceiling fuel 0 (inFrame frame x) := by
  intro s left within
  have inner := h (withScopes (·.push frame) s) left ⟨within.steps, within.moments⟩
  generalize e : x (withScopes (·.push frame) s) = outcome at inner
  cases inner with
  | value progressed within' =>
    rw [inFrame_of_ok e]
    exact .value progressed ⟨within'.steps, within'.moments⟩
  | failure overrun =>
    rw [inFrame_of_error e]
    exact .failure ⟨overrun.steps, overrun.moments, overrun.last⟩

/-- A change that takes no step makes no progress, and halts. -/
lemma modify {change : Context → Context} (same : ∀ c, (change c).steps = c.steps) :
    Halts ceiling fuel 0 (Evaluation.modify change : Evaluation (Recorded σ) Unit) := by
  intro s _ within
  refine .value ?_ ⟨?_, within.moments⟩
  · exact Nat.le_of_eq (same s.context).symm
  · exact Nat.le_trans (Nat.le_of_eq (same s.context)) within.steps

/-- That evaluations halt is handed on in frames, too. -/
lemma framed (ceiling fuel : Nat) (it : Interpreter σ) : Relation.Framed (Halting ceiling fuel)
    (Halting ceiling fuel) it.recorded it.recorded where
  outside := monadic.toSequential
  inside := monadic.toSequential
  fail fault := monadic.raise (.ofFault fault)
  enter h := h
  notify event _ _ within := .value (Nat.le_refl _) (within.note it event)
  passage h := modify h.steps

/-- An orderly action has an end: each of its rounds takes a step, so the steps that are left below
the ceiling are used up before the rounds are. -/
lemma ofAction {allowed : Update → Prop} {body : Evaluation (Recorded σ) Unit}
    {arguments : Evaluation (Recorded σ) (List String)} (bodies : Halts ceiling fuel 1 body)
    (rereads : Halts ceiling fuel 0 arguments) {rounds : Nat} {a b : Action σ α}
    (h : Action.CutShort allowed rounds a b) (s : State (Recorded σ))
    (left : ceiling < fuel + s.context.steps) (rounds_left : ceiling < rounds + s.context.steps)
    (within : s.Within ceiling) :
    Ends ceiling s.context.steps (ofAction body arguments fuel a.recorded s) := by
  induction h generalizing s with
  | done answer => exact .value (Nat.le_refl _) within
  | raise error => exact .failure within.overrun
  | inspect _ ih => exact ih s.context s left rounds_left within
  | @update _ _ _ change _ _ ih =>
    have rest := ih { s with context := s.context.update change } (by simpa) (by simpa)
      ⟨by simpa using within.steps, within.moments⟩
    exact rest.anyway (by simp)
  | readHost _ ih => exact ih s.host.host s left rounds_left within
  | writeHost host _ ih =>
    exact ih { s with host := { s.host with host := host } } left rounds_left
      ⟨within.steps, within.moments⟩
  | @runBody _ f g hf _ _ ih =>
    show Ends ceiling _ ((attempt body >>= fun result =>
      Evaluation.ofAction body arguments fuel (f (error? result)).recorded) s)
    rw [attempt_bind]
    · -- the step that the body takes makes up for the round that is used up
      refine (bodies s left within).bind fun value s' progressed within' => ?_
      exact (ih s' (by omega) (by omega) within').anyway (by omega)
    · intro error
      rw [error?, hf]
      rfl
  | @rereadArgs _ f g hf _ _ ih =>
    show Ends ceiling _ ((attempt arguments >>= fun result =>
      Evaluation.ofAction body arguments fuel (f result).recorded) s)
    rw [attempt_bind]
    · refine (rereads s left within).bind fun value s' progressed within' => ?_
      exact (ih value s' (by omega) (by omega) within').anyway (by omega)
    · intro error
      rw [hf]
      rfl
  | rounds _ ih => exact ih fuel fuel (Nat.le_refl _) s left left within
  | exhausted b =>
    -- no rounds are left only when no steps are
    have := within.steps
    omega

end Halts

end Evaluation

open Evaluation

namespace Interpreter

variable {it : Interpreter σ}

/-- A step has an end, and is counted. -/
lemma step_ends (positive : 0 < it.limits.maxSteps) (location : Location)
    {s : State (Recorded σ)} (within : s.Within it.limits.maxSteps) :
    Ends it.limits.maxSteps (s.context.steps + 1) (it.recorded.step location s) := by
  rw [step_recorded]
  split
  · exact .failure (within.overrun_takeStep it location)
  · exact .value (Nat.le_refl _) (within.takeStep (by omega) it location)

/-- Calls have an end if what they start has one and takes a step. -/
lemma serve_halts (uses : it.Uses fun _ handler => handler.Orderly)
    (runs : ∀ node, Halts ceiling fuel 1 (it.recorded.runNode fuel node))
    (expands : ∀ origin name args, Halts ceiling fuel 1 (it.recorded.expand fuel origin name args))
    (site : CallSite) (name : String) (args : List String) :
    Halts ceiling fuel 0
      (it.recorded.serve (it.recorded.runNode fuel) (it.recorded.expand fuel) fuel site name
        args) := by
  have framed := Halts.framed ceiling fuel it
  have bodies : ∀ name, Halts ceiling fuel 1 (runBody (it.recorded.runNode fuel) site name) := by
    intro name
    rw [runBody]
    cases site.body with
    | some body => exact runs _
    | none => exact fun s _ within => .failure within.overrun
  have rereads : Halting ceiling fuel (Word.arguments (it.recorded.expand fuel) site.args)
      (Word.arguments (it.recorded.expand fuel) site.args) :=
    Word.arguments_rel framed.outside (fun origin name args => (expands origin name args).anyway) _
  let run := it.recorded.runNode fuel
  let expand := it.recorded.expand fuel
  show Halting ceiling fuel _ (it.recorded.serve run expand fuel site name args)
  refine serve_rel framed.outside rfl fun definition => Halts.inFrame _ ?_
  let call : ActiveCall := ⟨name, site.kind, args, site.location⟩
  show Halting ceiling fuel _ (it.recorded.dispatch run expand fuel site definition call)
  refine dispatch_rel framed (fun node => (runs node).anyway) definition ?_
  refine handlers_rel uses fun handler orderly => handle_rel framed fun s left within => ?_
  exact Halts.ofAction (bodies name) rereads (orderly _ fuel) s left left within

/-- With enough fuel for the steps that are left, everything has an end and takes a step. -/
lemma run_halts (uses : it.Uses fun _ handler => handler.Orderly)
    (positive : 0 < it.limits.maxSteps) (fuel : Nat) :
    (∀ node, Halts it.limits.maxSteps fuel 1 (it.recorded.runNode fuel node)) ∧
      ∀ origin name args,
        Halts it.limits.maxSteps fuel 1 (it.recorded.expand fuel origin name args) := by
  induction fuel with
  | zero =>
    -- without fuel no steps can be left
    have none_left : ∀ s : State (Recorded σ), it.limits.maxSteps < 0 + s.context.steps →
        ¬ s.Within it.limits.maxSteps := by
      intro s left within
      have := within.steps
      omega
    exact ⟨fun _ s left within => absurd within (none_left s left),
      fun _ _ _ s left within => absurd within (none_left s left)⟩
  | succ fuel ih =>
    obtain ⟨runs, expands⟩ := ih
    let run := it.recorded.runNode fuel
    let expand := it.recorded.expand fuel
    have served := serve_halts uses runs expands
    have anyway : ∀ origin name args,
        Halts it.limits.maxSteps fuel 0 (it.recorded.expand fuel origin name args) :=
      fun origin name args => (expands origin name args).anyway
    refine ⟨fun node s left within => ?_, fun origin name args s left within => ?_⟩
    · rw [runNode]
      refine (step_ends positive node.start within).bind fun _ s' progressed within' => ?_
      have rest : Halting it.limits.maxSteps fuel _ (it.recorded.perform run expand fuel node) :=
        perform_rel Halts.monadic.toSequential (fun node => (runs node).anyway) anyway served node
      have counts : Halts it.limits.maxSteps fuel 0
          (countStatement : Evaluation (Recorded σ) Unit) :=
        Halts.modify fun c => rfl
      exact ((counts.bind fun _ => rest) s' (by omega) within').anyway progressed
    · rw [Interpreter.expand]
      refine (step_ends positive origin.start within).bind fun _ s' progressed within' => ?_
      have calls : ∀ site, Halting it.limits.maxSteps fuel _
          (it.recorded.call run expand fuel site) :=
        fun site => call_rel Halts.monadic.toSequential anyway (served site)
      exact (calls _ s' (by omega) within').anyway progressed

/-- A recorded run under a ceiling for steps has an end, and the same with more fuel. -/
lemma interpret_ends (uses : it.Uses fun _ handler => handler.Orderly)
    (positive : 0 < it.limits.maxSteps) (node : Node Token) {s : State (Recorded σ)}
    (begun : s.context.steps = 0) (silent : s.host.moments = []) :
    Ends it.limits.maxSteps 0 (it.recorded.interpret node s) ∧
      ∀ more, it.recorded.runNode (more + it.fuel) node s = it.recorded.interpret node s := by
  have enough : it.recorded.fuel = it.limits.maxSteps + 1 :=
    if_neg (Nat.ne_of_gt positive)
  have within : s.Within it.limits.maxSteps := by
    refine ⟨by omega, ?_⟩
    rw [silent]
    exact fun _ mem => nomatch mem
  have halts := (run_halts uses positive it.recorded.fuel).1 node s (by omega) within
  refine ⟨halts.anyway (Nat.zero_le _), fun more => ?_⟩
  have refines := (run_refines uses more it.recorded.fuel).1 node s
  change Ends _ _ (it.recorded.interpret node s) at halts
  generalize e : it.recorded.interpret node s = outcome at halts
  cases halts with
  | value => exact refines _ e
  | failure => exact refines _ e

/-- Under a ceiling for steps alone, every run has an end, and more fuel does not change it. It has
taken no steps beyond the ceiling if it ends well, and at most one in any case, which is then the
last thing that happens in it. -/
theorem ends_under_step_ceiling {random : Slot σ γ} {streams : Slot σ Streams}
    (uses : it.Uses (Served random streams)) (positive : 0 < it.limits.maxSteps) (node : Node Token)
    (s : State σ) :
    ∃ result s', it.runPiece node s = some (result, s') ∧
      (∀ more, it.runNode (more + it.fuel) node { s with context := s.context.beginRun } =
        it.interpret node { s with context := s.context.beginRun }) ∧
      s'.context.steps ≤ it.limits.maxSteps + 1 ∧
      (result = .ok () → s'.context.steps ≤ it.limits.maxSteps) ∧
      (∀ moment ∈ it.moments node s, moment.context.steps ≤ it.limits.maxSteps + 1) ∧
      ∀ earlier moment later, it.moments node s = earlier ++ moment :: later →
        it.limits.maxSteps < moment.context.steps → later = [] := by
  have orderly := uses.mono fun _ _ served => served.orderly
  let begun : State (Recorded σ) := { s.recorded with context := s.context.beginRun }
  obtain ⟨ends, same⟩ := interpret_ends orderly positive node (s := begun) rfl rfl
  obtain ⟨result, s', e, overrun, within⟩ := ends.exists_overrun
  obtain ⟨ran, happened⟩ := runPiece_of_recorded (runPiece_of_interpret (s := s.recorded) e)
  refine ⟨result, _, ran, fun more => ?_, overrun.steps, fun ok => (within () ok).steps, ?_, ?_⟩
  · have long := (it.run_forgets (more + it.fuel)).1 node begun
    have short := (it.run_forgets it.fuel).1 node begun
    rw [same more] at long
    exact long.symm.trans short
  · rw [happened]
    exact overrun.moments
  · intro earlier moment later split beyond
    rw [happened] at split
    change s'.host.moments = _ at split
    cases later with
    | nil => rfl
    | cons next rest =>
      -- only the last moment can be beyond the ceiling
      have before : moment ∈ s'.host.moments.dropLast := by
        rw [split, List.dropLast_append_of_ne_nil (List.cons_ne_nil _ _)]
        exact List.mem_append_right _ List.mem_cons_self
      have := overrun.last moment before
      omega

/-- A loop whose condition always holds. -/
def endlessLoop : Node Token :=
  .statement (.control default (.literal default "while") [.literal default "1"] (.block default []))

/-- Even an endless loop ends. -/
theorem endlessLoop_ends :
    ∃ result s', (Console.interpreter.withLimits ⟨0, 3, 0⟩).runPiece endlessLoop
        ⟨.initial, Console.start [] 0⟩ = some (result, s') ∧
      s'.context.steps ≤ 3 + 1 := by
  have uses : (Console.interpreter.withLimits ⟨0, 3, 0⟩).Uses
      (Served Console.generator Console.streams) :=
    Console.interpreter_uses.mono fun _ _ => .inl
  obtain ⟨result, s', ran, -, bound, -⟩ :=
    ends_under_step_ceiling uses (by decide) endlessLoop ⟨.initial, Console.start [] 0⟩
  exact ⟨result, s', ran, bound⟩

end Interpreter

end Scriptlet
