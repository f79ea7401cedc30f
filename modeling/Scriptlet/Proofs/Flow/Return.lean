import Scriptlet.Proofs.Flow.Serving

/-!
# The way out of a definition

The flow is `leaving` between a `return` and the end of the call of a definition in which it stands,
and nothing happens meanwhile. A call of a definition answers with the result that a `return` in it
handed over, which is one at most, and never sends its caller on the way out.
-/

namespace Scriptlet

open Evaluation

variable {σ γ : Type} [RandomSource γ] {random : Slot σ γ} {streams : Slot σ Streams}

/-- Execution that is not on its way out of a definition goes on or has been stopped. -/
lemma Flow.exists_reading {flow : Flow} (h : flow ≠ .leaving) :
    ∃ mode : Mode, mode.Reading ∧ flow = mode.flow := by
  cases flow with
  | next => exact ⟨.running, .inl rfl, rfl⟩
  | leaving => exact absurd rfl h
  | stopped => exact ⟨.fading, .inr rfl, rfl⟩

/-- While arguments are read, no definition is on its way out. -/
lemma Mode.Reading.flow_ne_leaving {mode : Mode} (h : mode.Reading) : mode.flow ≠ .leaving := by
  rcases h with rfl | rfl <;> exact nofun

/-- In a mode in which arguments are read, the flow tells the mode. -/
lemma Evaluation.At.of_reading {s : State (Recorded σ)} {mode : Mode} (reading : mode.Reading)
    (flow : s.context.flow = mode.flow) : At mode s := by
  refine ⟨flow, ?_⟩
  rcases reading with rfl | rfl <;> rfl

namespace Interpreter

variable {it : Interpreter σ}

/-- Nothing happens on the way out of a definition. -/
lemma flow_ne_leaving_of_mem_moments (uses : it.Uses (Standard random streams)) (node : Node Token)
    (s : State σ) : ∀ moment ∈ it.moments node s, moment.context.flow ≠ .leaving := by
  cases ran : it.recorded.runPiece node s.recorded with
  | none =>
    rw [moments, momentsFrom, ran]
    exact List.forall_mem_nil _
  | some ended =>
    obtain ⟨_, trail, -⟩ := runPiece_trail uses (runPiece_of_recorded ran).1
    exact trail.flow_ne_leaving

/-- A run does not end on the way out of a definition. -/
lemma flow_runPiece_ne_leaving (uses : it.Uses (Standard random streams)) {node : Node Token}
    {s s' : State σ} {result : Except RuntimeError Unit}
    (ran : it.runPiece node s = some (result, s')) : s'.context.flow ≠ .leaving := by
  obtain ⟨last, trail, flow, -⟩ := runPiece_trail uses ran
  intro left
  cases last with
  | leaving handed =>
    -- the result would be for the global frame, which takes none
    obtain ⟨-, moment, -, e, -⟩ := trail.exists_last_of_leaving (Nat.le_refl 0)
    exact absurd (Moment.resultFor?_eq_some e).2.1 (Nat.lt_irrefl 0)
  | running => exact nomatch flow.symm.trans left
  | halting => exact nomatch flow.symm.trans left
  | fading => exact nomatch flow.symm.trans left

/-- A piece of a script that ends on the way out of a definition ended well, and the last thing that
happened in it was a `return` for the innermost definition around it, the only one. -/
lemma runNode_leaving (uses : it.Uses (Standard random streams)) {fuel : Nat} {node : Node Token}
    {s s' : State σ} {result : Except RuntimeError Unit} (start : s.context.flow = .next)
    (ran : it.runNode fuel node s = some (result, s')) (left : s'.context.flow = .leaving) :
    result = .ok () ∧ ∃ earlier last value,
      (it.recorded.runNode fuel node).momentsFrom s = earlier ++ [last] ∧
        last.resultFor? s.context.scopes.current = some value ∧
        ∀ moment ∈ earlier, moment.resultFor? s.context.scopes.current = none := by
  have recorded := ((it.run_forgets fuel).1 node).exists_recorded ran
  have carries := (run_carries uses fuel).1 node .running (.inl rfl) nofun
  obtain ⟨mode, -, goes⟩ := carries _ (.running start) _ _ recorded
  have flow : mode.flow = .leaving := goes.flow.symm.trans left
  cases mode with
  | leaving value =>
    have ok : result = .ok () := by
      cases result with
      | ok value => rfl
      | error error => rcases goes.permits with running | ⟨fading, -⟩ <;> contradiction
    obtain ⟨news, moments, trail⟩ := goes.happened
    have le : s.context.scopes.current ≤ s.context.scopes.backtrace.length := by
      rw [ScopeStack.length_backtrace]
      exact s.context.scopes.current_le_depth
    obtain ⟨earlier, last, rfl, handed, before⟩ := trail.exists_last_of_leaving le
    exact ⟨ok, earlier, last, value, moments, handed, before⟩
  | running => cases flow
  | halting => cases flow
  | fading => cases flow

/-- An expansion does not end on the way out of a definition. -/
lemma flow_expand_ne_leaving (uses : it.Uses (Standard random streams)) {fuel : Nat} {origin : Token}
    {name : Word Token} {args : List (Word Token)} {s s' : State σ}
    {result : Except RuntimeError String} (start : s.context.flow ≠ .leaving)
    (ran : it.expand fuel origin name args s = some (result, s')) :
    s'.context.flow ≠ .leaving := by
  have recorded := ((it.run_forgets fuel).2 origin name args).exists_recorded ran
  obtain ⟨mode, reading, flow⟩ := Flow.exists_reading start
  have carries := (run_carries uses fuel).2 origin name args mode reading
  obtain ⟨last, reached, goes⟩ := carries _ (.of_reading reading flow) _ _ recorded
  have ended : s'.context.flow = last.flow := goes.flow
  rw [ended]
  exact reached.flow_ne_leaving

/-- A call that a script has defined is served in a frame of its own, unless the run was stopped. -/
lemma serve_of_definition {run : Node Token → Evaluation σ Unit} {expand : Expand σ} {rounds : Nat}
    {site : CallSite} {name : String} {args : List String} {definition : Definition}
    {s s' : State σ} {value : String}
    (defined : s.context.definition? site.kind name = some definition)
    (served : it.serve run expand rounds site name args s = some (.ok value, s')) :
    s.context.flow = .stopped ∧ value = "" ∧ s' = s ∨
      s.context.flow ≠ .stopped ∧ ∃ answer, value = answer.getD "" ∧
        inFrame (.ofCall ⟨name, site.kind, args, site.location⟩ true)
          (it.dispatch run expand rounds site (some definition)
            ⟨name, site.kind, args, site.location⟩) s = some (.ok answer, s') := by
  rcases serve_ok served with stopped | ⟨goes_on, answer, answered, called⟩
  · exact .inl stopped
  · rw [defined] at called
    exact .inr ⟨goes_on, answer, answered, called⟩

/-- A call of a definition answers with the one result that was handed to it, or with the empty text,
and is not on the way out of a definition when it has ended. -/
lemma serve_definition (uses : it.Uses (Standard random streams)) {fuel : Nat} {site : CallSite}
    {name : String} {args : List String} {s s' : State σ} {value : String}
    (start : s.context.flow ≠ .leaving) (defined : (s.context.definition? site.kind name).isSome)
    (served : it.serve (it.runNode fuel) (it.expand fuel) fuel site name args s =
      some (.ok value, s')) :
    s'.context.flow ≠ .leaving ∧
      let handed := ((it.recorded.serve (it.recorded.runNode fuel) (it.recorded.expand fuel) fuel
        site name args).momentsFrom s).filterMap (Moment.resultFor? (s.context.scopes.depth + 1))
      handed = [value] ∨ handed = [] ∧ value = "" := by
  obtain ⟨definition, defined⟩ := Option.isSome_iff_exists.1 defined
  have forgets := it.serve_forgets (it.run_forgets fuel).1 (it.run_forgets fuel).2 site name args
  have recorded := forgets.exists_recorded served
  have runs : ∀ statement (mode : Mode), mode.Reading → Carries it.limits.maxSteps mode
      (fun _ => True) (it.recorded.runNode fuel (.statement statement)) :=
    fun statement mode reading =>
      (run_carries uses fuel).1 _ mode reading fun _ => ⟨statement, rfl⟩
  rcases serve_of_definition (s := s.recorded) defined recorded with
    ⟨stopped, rfl, same⟩ | ⟨goes_on, answer, rfl, called⟩
  · -- after a stop nothing is called
    have context := congrArg State.context same
    have silent := congrArg (fun t : State (Recorded σ) => t.host.moments) same
    change s'.context = s.context at context
    change Evaluation.momentsFrom _ s = [] at silent
    dsimp only
    rw [context, silent]
    exact ⟨start, .inr ⟨rfl, rfl⟩⟩
  · have next : s.context.flow = .next := by
      cases flow : s.context.flow with
      | next => rfl
      | leaving => exact absurd flow start
      | stopped => exact absurd flow goes_on
    obtain ⟨last, news, moments, handing, goes, answers⟩ := call_definition runs next called
    have flow : s'.context.flow = (last.outside _ true).flow := goes.flow
    change Evaluation.momentsFrom _ s = news at moments
    change news.filterMap (Moment.resultFor? (s.context.scopes.depth + 1)) = _ at handing
    refine ⟨?_, ?_⟩
    · rw [flow, Mode.flow_outside]
      split
      · exact nofun
      · rename_i other
        exact fun left => other ⟨left, rfl⟩
    · dsimp only
      rw [moments, handing, answers answer rfl]
      cases last.result? with
      | none => exact .inr ⟨rfl, rfl⟩
      | some result => exact .inl rfl

/-- The flow is `leaving` only between a `return` and the end of the innermost call of a definition
around it, and nothing happens meanwhile: it is at no moment of a run, nor at the end of a run or of
an expansion, and a piece of a script that ends with it ended with the only `return` for the call in
which it stands. A call of a definition answers with the result of the `return` for it, or with the
empty text if there was none. -/
theorem return_discipline (uses : it.Uses (Standard random streams)) :
    (∀ node (s : State σ), ∀ moment ∈ it.moments node s, moment.context.flow ≠ .leaving) ∧
    (∀ node (s s' : State σ) result, it.runPiece node s = some (result, s') →
      s'.context.flow ≠ .leaving) ∧
    ∀ fuel,
      (∀ node (s s' : State σ) result, s.context.flow = .next →
        it.runNode fuel node s = some (result, s') → s'.context.flow = .leaving →
        result = .ok () ∧ ∃ earlier last value,
          (it.recorded.runNode fuel node).momentsFrom s = earlier ++ [last] ∧
          last.resultFor? s.context.scopes.current = some value ∧
          ∀ moment ∈ earlier, moment.resultFor? s.context.scopes.current = none) ∧
      (∀ origin name args (s s' : State σ) result, s.context.flow ≠ .leaving →
        it.expand fuel origin name args s = some (result, s') → s'.context.flow ≠ .leaving) ∧
      ∀ site name args (s s' : State σ) value, s.context.flow ≠ .leaving →
        (s.context.definition? site.kind name).isSome →
        it.serve (it.runNode fuel) (it.expand fuel) fuel site name args s = some (.ok value, s') →
        s'.context.flow ≠ .leaving ∧
          let handed := ((it.recorded.serve (it.recorded.runNode fuel) (it.recorded.expand fuel)
            fuel site name args).momentsFrom s).filterMap
              (Moment.resultFor? (s.context.scopes.depth + 1))
          handed = [value] ∨ handed = [] ∧ value = "" := by
  refine ⟨flow_ne_leaving_of_mem_moments uses, ?_, fun fuel => ⟨?_, ?_, ?_⟩⟩
  · intro node s s' result ran
    exact flow_runPiece_ne_leaving uses ran
  · intro node s s' result start ran left
    exact runNode_leaving uses start ran left
  · intro origin name args s s' result start ran
    exact flow_expand_ne_leaving uses start ran
  · intro site name args s s' value start defined served
    exact serve_definition uses start defined served

/-- An expansion that returns its argument twice. -/
def twice : Definition :=
  ⟨"twice", .expansion, ["x"], none,
    .command (.literal default "return")
      [.reference default (.literal default "x"), .reference default (.literal default "x")]⟩

/-- The expansion answers with what its `return` was given. -/
theorem twice_returns :
    let defined := Context.initial.update (.define twice)
    let site : CallSite :=
      ⟨.expansion, .literal default "twice", [], none, .script [], .origin⟩
    let it := Console.interpreter
    ∃ s', it.serve (it.runNode 2) (it.expand 2) 2 site "twice" ["a"]
        ⟨defined, Console.start [] 0⟩ = some (.ok "a a", s') ∧
      s'.context.flow ≠ .leaving ∧
      ((it.recorded.serve (it.recorded.runNode 2) (it.recorded.expand 2) 2 site "twice"
        ["a"]).momentsFrom ⟨defined, Console.start [] 0⟩).filterMap (Moment.resultFor? 1) =
          ["a a"] := by
  intro defined site it
  obtain ⟨s', served⟩ : ∃ s', it.serve (it.runNode 2) (it.expand 2) 2 site "twice" ["a"]
      ⟨defined, Console.start [] 0⟩ = some (.ok "a a", s') := ⟨_, rfl⟩
  obtain ⟨-, -, all⟩ := return_discipline Console.interpreter_uses
  obtain ⟨-, -, serves⟩ := all 2
  obtain ⟨goes_on, handed | ⟨-, empty⟩⟩ := serves site "twice" ["a"]
    ⟨defined, Console.start [] 0⟩ s' "a a" nofun rfl served
  · exact ⟨s', served, goes_on, handed⟩
  · exact absurd empty (by decide)

end Interpreter

end Scriptlet
