import Scriptlet.Console
import Scriptlet.Proofs.Evaluation.Changes
import Scriptlet.Proofs.Evaluation.Orderly
import Scriptlet.Proofs.Evaluation.Steps

/-!
# Stack discipline

Whatever happens in an evaluation, and whether it fails or not, it leaves the frames as it found
them but for their variables, counters and results (`Keeps`). Handlers cannot enter or leave calls,
and a frame that is entered is left again, so every part of a run keeps its calls (`run_keeps`).
-/

namespace Scriptlet

variable {σ α β : Type}

namespace Evaluation

/-- However the evaluation ends, the calls in progress are those there were when it began. -/
def Keeps (x : Evaluation σ α) : Prop :=
  ∀ s result s', x s = some (result, s') → s'.context.scopes.shape = s.context.scopes.shape

namespace Keeps

/-- What does not touch the context keeps its calls. -/
lemma of_untouched {x : Evaluation σ α}
    (same : ∀ s, ∃ result host, x s = some (result, ⟨s.context, host⟩)) : Keeps x := by
  intro s result s' e
  obtain ⟨_, host, untouched⟩ := same s
  cases untouched.symm.trans e
  rfl

/-- A value keeps the calls. -/
lemma pure (value : α) : Keeps (Pure.pure value : Evaluation σ α) :=
  of_untouched fun s => ⟨.ok value, s.host, rfl⟩

/-- So does an error. -/
lemma raise (error : RuntimeError) : Keeps (Evaluation.raise error : Evaluation σ α) :=
  of_untouched fun s => ⟨.error error, s.host, rfl⟩

/-- So does a look at the context. -/
lemma context : Keeps (Evaluation.context : Evaluation σ Context) :=
  of_untouched fun s => ⟨.ok s.context, s.host, rfl⟩

/-- So does a look at the host. -/
lemma host : Keeps (Evaluation.host : Evaluation σ σ) :=
  of_untouched fun s => ⟨.ok s.host, s.host, rfl⟩

/-- So does a change of the host. -/
lemma setHost (host : σ) : Keeps (Evaluation.setHost host) :=
  of_untouched fun _ => ⟨.ok (), host, rfl⟩

/-- So does a note. -/
lemma notify (observe : Event → Context → σ → σ) (event : Event) :
    Keeps (Evaluation.notify observe event) :=
  of_untouched fun s => ⟨.ok (), observe event s.context s.host, rfl⟩

/-- An attempt keeps the calls if what it tries does. -/
lemma attempt {x : Evaluation σ α} (h : Keeps x) : Keeps (attempt x) := by
  intro s result s' e
  obtain ⟨inner, ended, -⟩ := attempt_cases e
  exact h _ _ _ ended

/-- A change of the context keeps the calls if it changes no identity of a frame. -/
lemma modify {change : Context → Context}
    (same : ∀ c, (change c).scopes.shape = c.scopes.shape) :
    Keeps (Evaluation.modify change : Evaluation σ Unit) := by
  intro s result s' e
  cases e
  exact same s.context

/-- Evaluations in turn keep the calls if each of them does. -/
lemma bind {x : Evaluation σ α} {f : α → Evaluation σ β} (hx : Keeps x)
    (hf : ∀ value, Keeps (f value)) : Keeps (x >>= f) := by
  intro s result s' e
  rcases bind_cases e with ⟨value, s₁, first, rest⟩ | ⟨error, first, -⟩
  · exact (hf value _ _ _ rest).trans (hx _ _ _ first)
  · exact hx _ _ _ first

/-- The frame of a call is left again. -/
lemma inFrame {x : Evaluation σ α} (h : Keeps x) (frame : Frame) : Keeps (inFrame frame x) := by
  intro s result s' e
  obtain ⟨inner, s₁, first, rfl, -⟩ := inFrame_cases e
  exact ScopeStack.shape_pop (h _ _ _ first)

end Keeps

/-- `Keeps`, of one of two evaluations. -/
def Keeping : Relation σ σ := fun _ x _ =>
  Keeps x

namespace Keeping

/-- Values and errors keep the calls, and so do evaluations in turn. -/
lemma monadic : Relation.Monadic (Keeping (σ := σ)) where
  pure := Keeps.pure
  raise := Keeps.raise
  bind := Keeps.bind
  context := Keeps.context.bind

/-- What is done around a call keeps the calls: the frame that is pushed is popped, also behind an
error. -/
lemma framed (it : Interpreter σ) : Relation.Framed Keeping Keeping it it where
  outside := monadic.toSequential
  inside := monadic.toSequential
  fail fault := monadic.raise (.ofFault fault)
  enter h := h
  notify := Keeps.notify it.observe
  passage h := Keeps.modify h.shape

end Keeping

section

variable {body : Evaluation σ Unit} {arguments : Evaluation σ (List String)} {rounds : Nat}

/-- A step of a handler neither enters nor leaves calls. -/
lemma shape_step (bodies : Keeps body) (rereads : Keeps arguments)
    {first next : Action σ α × State σ} (step : Action.Step body arguments rounds first next) :
    next.2.context.scopes.shape = first.2.context.scopes.shape := by
  cases step with
  | update change rest s => exact s.context.shape_update change
  | runBody rest ran => exact bodies _ _ _ ran
  | rereadArgs rest reread => exact rereads _ _ _ reread
  | _ => rfl

/-- The steps of an action keep the calls if the body and the arguments do. -/
lemma shape_steps (bodies : Keeps body) (rereads : Keeps arguments)
    {first last : Action σ α × State σ} (steps : Action.Steps body arguments rounds first last) :
    last.2.context.scopes.shape = first.2.context.scopes.shape := by
  induction steps with
  | refl => rfl
  | tail _ step ih => exact (shape_step bodies rereads step).trans ih

/-- So does the action as it is run. -/
lemma Keeps.ofAction (bodies : Keeps body) (rereads : Keeps arguments) (action : Action σ α) :
    Keeps (ofAction body arguments rounds action) :=
  fun _ _ _ e => shape_steps bodies rereads (steps_of_ofAction e)

end

end Evaluation

open Evaluation

/-- The states that a host can have at hand while nothing runs: it may change a context in every way
that a handler may, and start runs on it, which may fail. -/
inductive State.Reachable : State σ → Prop
  | initial (host : σ) : Reachable ⟨.initial, host⟩
  | host {s : State σ} (host : σ) : Reachable s → Reachable { s with host := host }
  | update {s : State σ} (change : Update) :
    Reachable s → Reachable { s with context := s.context.update change }
  | interpret {s s' : State σ} {result : Except RuntimeError Unit} (it : Interpreter σ)
    (node : Node Token) :
    Reachable s → it.interpret node s = some (result, s') → Reachable s'
  | runScript {s s' : State σ} {result : Except RuntimeError Unit} (it : Interpreter σ)
    (script : Script) :
    Reachable s → it.runScript script s = some (result, s') → Reachable s'
  | run {s s' : State σ} {result : Except Failure Unit} (it : Interpreter σ) (source : String) :
    Reachable s → it.run source s = some (result, s') → Reachable s'
  | runStatement {s s' : State σ} {result : Except Failure Unit} (it : Interpreter σ)
    (source : String) :
    Reachable s → it.runStatement source s = some (result, s') → Reachable s'

namespace Interpreter

section

variable {it : Interpreter σ} {run : Node Token → Evaluation σ Unit} {expand : Expand σ}

/-- A body is left with the frames it was started with. -/
lemma runBody_keeps (runs : ∀ node, Keeps (run node)) (site : CallSite) (name : String) :
    Keeps (runBody run site name) := by
  show Keeping (runBody run site name) (runBody run site name)
  exact runBody_rel (Keeping.framed Interpreter.empty) runs site name

/-- The arguments of a call keep the calls if its expansions do. -/
lemma arguments_keeps (expands : ∀ origin name args, Keeps (expand origin name args))
    (words : List (Word Token)) : Keeps (Word.arguments expand words) := by
  show Keeping (Word.arguments expand words) (Word.arguments expand words)
  exact Word.arguments_rel Keeping.monadic.toSequential expands words

/-- However a call is served, its frame is the innermost one at the end. -/
lemma dispatch_keeps (runs : ∀ node, Keeps (run node))
    (expands : ∀ origin name args, Keeps (expand origin name args)) (rounds : Nat) (site : CallSite)
    (definition : Option Definition) (call : ActiveCall) :
    Keeps (it.dispatch run expand rounds site definition call) := by
  have framed := Keeping.framed it
  show Keeping (it.dispatch run expand rounds site definition call)
    (it.dispatch run expand rounds site definition call)
  have any : it.Uses fun _ _ => True := fun _ _ _ => trivial
  refine dispatch_rel framed runs definition (handlers_self any fun handler _ => ?_)
  refine handle_rel framed ?_
  exact Keeps.ofAction (runBody_keeps runs site call.name) (arguments_keeps expands site.args) _

/-- To serve a call keeps the calls. -/
lemma serve_keeps (runs : ∀ node, Keeps (run node))
    (expands : ∀ origin name args, Keeps (expand origin name args)) (rounds : Nat) (site : CallSite)
    (name : String) (args : List String) : Keeps (it.serve run expand rounds site name args) := by
  show Keeping (it.serve run expand rounds site name args)
    (it.serve run expand rounds site name args)
  refine serve_rel Keeping.monadic.toSequential rfl fun definition => ?_
  exact (dispatch_keeps runs expands rounds site definition _).inFrame _

/-- So does a call with its name and arguments. -/
lemma call_keeps (runs : ∀ node, Keeps (run node))
    (expands : ∀ origin name args, Keeps (expand origin name args)) (rounds : Nat)
    (site : CallSite) : Keeps (it.call run expand rounds site) := by
  show Keeping (it.call run expand rounds site) (it.call run expand rounds site)
  exact call_rel Keeping.monadic.toSequential expands (serve_keeps runs expands rounds site)

end

/-- A statement, and an expansion, is left with the frames it was started with. -/
lemma run_keeps (it : Interpreter σ) (fuel : Nat) :
    (∀ node, Keeps (it.runNode fuel node)) ∧
      ∀ origin name args, Keeps (it.expand fuel origin name args) := by
  have framed := Keeping.framed it
  have all := run_rel it it framed.outside 0 ?_ ?_ ?_ ?_ fuel
  · rw [Nat.zero_add] at all
    exact all
  · exact step_rel framed.outside rfl (Keeps.modify fun c => rfl) framed.notify
  · refine Keeps.modify fun c => ScopeStack.shape_modifyTop _ ?_
    exact fun frame => rfl
  · intro fuel runs expands site name args
    rw [Nat.zero_add] at runs expands ⊢
    exact serve_keeps runs expands fuel site name args
  · -- without fuel nothing ends
    exact ⟨fun _ _ _ _ h => (nomatch h), fun _ _ _ _ _ _ h => (nomatch h)⟩

/-- A definition answers with what its own frame was handed while its body ran. -/
lemma runDefinition_ok {run : Node Token → Evaluation σ Unit} {definition : Definition}
    {args : List String} {s s' : State σ} {answer : Option String}
    (h : runDefinition run definition args s = some (.ok answer, s')) :
    ∃ s₁, run (.statement definition.body) (withScopes (bindParams definition args) s) =
        some (.ok (), s₁) ∧
      answer = s₁.context.scopes.top.result := by
  rcases runDefinition_cases h with ⟨_, failed, _⟩ | ⟨inner, s₁, ran, ⟨_, _, failed, _⟩ | ⟨rfl, ok, _⟩⟩
  · cases failed
  · cases failed
  · exact ⟨s₁, ran, Except.ok.inj ok⟩

/-- A run leaves every call that it enters, however it ends. -/
lemma depth_runPiece {it : Interpreter σ} {node : Node Token} {s s' : State σ}
    {result : Except RuntimeError Unit} (h : it.runPiece node s = some (result, s')) :
    s'.context.scopes.depth = 0 := by
  obtain ⟨s₁, -, rfl⟩ := interpret_of_runPiece h
  exact ScopeStack.depth_unwind _

/-- How a run of a text ends: where it began if the text could not be read, else as the script does. -/
lemma run_cases {it : Interpreter σ} {source : String} {s s' : State σ}
    {result : Except Failure Unit} (h : it.run source s = some (result, s')) :
    (∃ error, it.parse source = .error error ∧ result = .error (.parse error) ∧ s' = s) ∨
      ∃ script ended, it.parse source = .ok script ∧ it.runScript script s = some (ended, s') ∧
        result = ended.mapError .runtime := by
  rw [run] at h
  cases parsed : it.parse source with
  | error error =>
    rw [parsed] at h
    cases h
    exact .inl ⟨error, rfl, rfl, rfl⟩
  | ok script =>
    rw [parsed] at h
    obtain ⟨⟨ended, s₁⟩, ran, e⟩ := Option.map_eq_some_iff.1 h
    cases e
    exact .inr ⟨script, ended, rfl, ran, rfl⟩

/-- A text that is run as a statement changes nothing, or is run as a piece. -/
lemma runStatement_cases {it : Interpreter σ} {source : String} {s s' : State σ}
    {result : Except Failure Unit} (h : it.runStatement source s = some (result, s')) :
    s' = s ∨ ∃ node ended, it.runPiece node s = some (ended, s') := by
  rw [runStatement] at h
  cases parsed : Script.parseStatement it.options it.limits.maxNesting source with
  | error error =>
    rw [parsed] at h
    cases h
    exact .inl rfl
  | ok statement =>
    rw [parsed] at h
    cases statement with
    | none =>
      cases h
      exact .inl rfl
    | some statement =>
      obtain ⟨⟨ended, s₁⟩, ran, e⟩ := Option.map_eq_some_iff.1 h
      cases e
      exact .inr ⟨_, ended, ran⟩

end Interpreter

/-- What holds of the first state and is kept by changes and by runs holds of every state that a
host can have at hand: all ways to run a text run a piece of a script or nothing. -/
lemma State.Reachable.of_runs {motive : State σ → Prop} (initial : ∀ host, motive ⟨.initial, host⟩)
    (host : ∀ {s : State σ} host, motive s → motive { s with host := host })
    (update : ∀ {s : State σ} change, motive s →
      motive { s with context := s.context.update change })
    (interpret : ∀ {s s' : State σ} {result} (it : Interpreter σ) node,
      it.interpret node s = some (result, s') → motive s → motive s')
    (runPiece : ∀ {s s' : State σ} {result} (it : Interpreter σ) node,
      it.runPiece node s = some (result, s') → motive s → motive s')
    {s : State σ} (h : s.Reachable) : motive s := by
  induction h with
  | initial h => exact initial h
  | host h _ ih => exact host h ih
  | update change _ ih => exact update change ih
  | interpret it node _ ran ih => exact interpret it node ran ih
  | runScript it script _ ran ih => exact runPiece it script.root ran ih
  | run it source _ ran ih =>
    rcases Interpreter.run_cases ran with ⟨_, _, _, rfl⟩ | ⟨script, _, _, ran, _⟩
    · exact ih
    · exact runPiece it script.root ran ih
  | runStatement it source _ ran ih =>
    rcases Interpreter.runStatement_cases ran with rfl | ⟨node, _, ran⟩
    · exact ih
    · exact runPiece it node ran ih

/-- A host never has a context at hand in which a call is in progress. -/
lemma State.Reachable.depth {s : State σ} (h : s.Reachable) : s.context.scopes.depth = 0 := by
  refine of_runs (motive := fun s => s.context.scopes.depth = 0)
    ?initial ?host ?update ?interpret ?runPiece h
  case initial =>
    exact fun _ => rfl
  case host =>
    exact fun _ depth => depth
  case update =>
    exact fun change depth => (Context.depth_update _ change).trans depth
  case interpret =>
    intro s s' result it node ran depth
    have kept := (it.run_keeps it.fuel).1 node _ _ _ ran
    exact (ScopeStack.depth_eq_of_shape kept).trans depth
  case runPiece =>
    exact fun it node ran _ => Interpreter.depth_runPiece ran

namespace Interpreter

/-- Whether they fail or not, statements, arguments and calls leave the frames they found, so a
definition takes its answer from its own frame, a handler has its own call in the innermost frame at
every step, and no call is in progress after a run. -/
theorem stack_discipline (it : Interpreter σ) (fuel : Nat) :
    ((∀ node, Keeps (it.runNode fuel node)) ∧
      (∀ words, Keeps (Word.arguments (it.expand fuel) words)) ∧
      ∀ site, Keeps (it.call (it.runNode fuel) (it.expand fuel) fuel site)) ∧
    (∀ (definition : Definition) (args : List String) (s s' : State σ) (answer : Option String),
      runDefinition (it.runNode fuel) definition args s = some (.ok answer, s') →
      ∃ s₁, it.runNode fuel (.statement definition.body)
          (withScopes (bindParams definition args) s) = some (.ok (), s₁) ∧
        s₁.context.scopes.shape = s.context.scopes.shape ∧
        answer = s₁.context.scopes.top.result) ∧
    (∀ (site : CallSite) (call : ActiveCall) (handler : Handler σ) (s s' : State σ)
      (left : Action σ (Option String)),
      Action.Steps (runBody (it.runNode fuel) site call.name)
        (Word.arguments (it.expand fuel) site.args) fuel
        (handler.invoke ⟨call, site.node, site.body⟩, withScopes (·.push (.ofCall call false)) s)
        (left, s') →
      s'.context.scopes.top.call = call ∧ s'.context.scopes.pop.shape = s.context.scopes.shape) ∧
    (∀ (script : Script) (s s' : State σ) (result : Except RuntimeError Unit),
      it.runScript script s = some (result, s') → s'.context.scopes.depth = 0) ∧
    ∀ (source : String) (s s' : State σ) (result : Except Failure Unit), s.Reachable →
      it.run source s = some (result, s') ∨ it.runStatement source s = some (result, s') →
      s'.context.scopes.depth = 0 := by
  obtain ⟨runs, expands⟩ := it.run_keeps fuel
  have rereads := arguments_keeps expands
  refine ⟨⟨runs, rereads, call_keeps runs expands fuel⟩, ?_, ?_, ?_, ?_⟩
  · intro definition args s s' answer ended
    obtain ⟨s₁, ran, taken⟩ := runDefinition_ok ended
    refine ⟨s₁, ran, ?_, taken⟩
    exact (runs _ _ _ _ ran).trans (shape_bindParams definition args s.context.scopes)
  · intro site call handler s s' left steps
    have shape := shape_steps (runBody_keeps runs site call.name) (rereads site.args) steps
    exact ⟨ScopeStack.call_top_eq_of_shape shape, ScopeStack.shape_pop shape⟩
  · intro script s s' result ran
    exact depth_runPiece ran
  · intro source s s' result reachable ran
    rcases ran with ran | ran
    · exact (State.Reachable.run it source reachable ran).depth
    · exact (State.Reachable.runStatement it source reachable ran).depth

/-- A loop whose body is a call that nothing serves. -/
def failingLoop : Script :=
  ⟨"!repeat(2) lost",
    [.control default (.literal default "repeat") [.literal default "2"]
      (.command (.literal default "lost") [])]⟩

/-- The loop fails two calls deep, and no call is in progress any more. -/
theorem failingLoop_left :
    ∃ error s', (Console.interpreter.withLimits ⟨0, 3, 0⟩).runScript failingLoop
        ⟨.initial, Console.start [] 0⟩ = some (.error error, s') ∧
      error.backtrace.length = 2 ∧ s'.context.scopes.depth = 0 := by
  refine ⟨_, _, rfl, rfl, ?_⟩
  have discipline := stack_discipline (Console.interpreter.withLimits ⟨0, 3, 0⟩) 1
  exact discipline.2.2.2.1 failingLoop ⟨.initial, Console.start [] 0⟩ _ _ rfl

end Interpreter

end Scriptlet
