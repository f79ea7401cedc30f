import Scriptlet.Interpreter.Evaluation

/-!
# Running statements

How an interpreter runs a statement and evaluates an expansion. Both take a step, which counts
against the ceiling, and then one unit of fuel for all that they start in turn; a run that respects
the ceiling never uses its fuel up.
-/

namespace Scriptlet

/-- A call as it stands in a script. -/
structure CallSite where
  kind : CallKind
  name : Word Token
  args : List (Word Token)
  body : Option (Statement Token)
  node : Node Token
  location : Location

namespace Interpreter

variable {σ : Type}

/-- Takes a step: counts it, and fails if it is one too many. -/
def step (it : Interpreter σ) (location : Location) : Evaluation σ Unit := do
  Evaluation.modify fun c => { c with steps := c.steps + 1 }
  Evaluation.notify it.observe (.step location)
  let context ← Evaluation.context
  if 0 < it.limits.maxSteps && it.limits.maxSteps < context.steps then
    Evaluation.failAt location (.stepCeiling it.limits.maxSteps)
  else pure ()

/-- Counts a statement of the innermost frame. -/
def countStatement : Evaluation σ Unit :=
  Evaluation.modify fun c => c.withScopes (·.modifyTop Frame.countStatement)

/-- Runs statements in order, as long as execution goes on to the next one. -/
def sequence (run : Statement Token → Evaluation σ Unit) :
    List (Statement Token) → Evaluation σ Unit
  | [] => pure ()
  | statement :: rest => do
    if (← Evaluation.context).isInterrupted then pure ()
    else
      run statement
      sequence run rest

/-- The fault of a call that gives a definition the wrong number of arguments. -/
def arityFault? (definition : Definition) (given : Nat) : Option Fault :=
  let expected := definition.params.length
  match definition.collector with
  | some _ =>
    if expected ≤ given then none
    else some (.tooFewForDefinition definition.name expected given)
  | none =>
    if given = expected then none
    else some (.wrongArgumentCount definition.name expected given)

/-- Binds the parameters of a definition in the current scope. -/
def bindParams (definition : Definition) (args : List String) (s : ScopeStack) : ScopeStack :=
  let bound :=
    (definition.params.zip args).foldl (fun s (param, arg) => s.bindLocal param arg) s
  match definition.collector with
  | some collector =>
    bound.bindLocal collector (Text.unwords (args.drop definition.params.length))
  | none => bound

/-- The result handed to the innermost frame, which is taken from it. -/
def takeResult : Evaluation σ (Option String) := do
  let result := (← Evaluation.context).scopes.top.result
  Evaluation.modify fun c => c.withScopes (·.modifyTop fun f => { f with result := none })
  pure result

/-- Ends the way out of a definition. -/
def arrive (c : Context) : Context :=
  if c.flow = .leaving then { c with flow := .next } else c

/-- Runs a definition in its frame. -/
def runDefinition (run : Node Token → Evaluation σ Unit) (definition : Definition)
    (args : List String) : Evaluation σ (Option String) :=
  match arityFault? definition args.length with
  | some fault => Evaluation.fail fault
  | none => do
    Evaluation.modify fun c => c.withScopes (bindParams definition args)
    run (.statement definition.body)
    Evaluation.modify arrive
    takeResult

/-- Runs the body of a call, which must have one. -/
def runBody (run : Node Token → Evaluation σ Unit) (site : CallSite) (name : String) :
    Evaluation σ Unit :=
  match site.body with
  | some body => run (.statement body)
  | none => Evaluation.fail (.noBody name)

/-- Has a handler serve a call in its frame. -/
def handle (it : Interpreter σ) (run : Node Token → Evaluation σ Unit) (expand : Expand σ)
    (rounds : Nat) (site : CallSite) (call : ActiveCall) (handler : Handler σ) :
    Evaluation σ (Option String) := do
  Evaluation.notify it.observe (.handler call)
  Evaluation.ofAction (runBody run site call.name) (Word.arguments expand site.args) rounds
    (handler.invoke ⟨call, site.node, site.body⟩)

/-- Serves a call in its frame: by the definition or, without one, by the first handler that answers
to its name. -/
def dispatch (it : Interpreter σ) (run : Node Token → Evaluation σ Unit) (expand : Expand σ)
    (rounds : Nat) (site : CallSite) (definition : Option Definition) (call : ActiveCall) :
    Evaluation σ (Option String) :=
  match definition with
  | some definition => do
    Evaluation.notify it.observe (.definition call)
    runDefinition run definition call.args
  | none =>
    match Chain.handlerFor? (it.registry.chain call.kind) call.name with
    | none => Evaluation.fail (.noCall call.kind call.name)
    | some handler => it.handle run expand rounds site call handler

/-- Serves a call with this name and these arguments, in a frame of its own. After a stop nothing is
called any more. Only an expansion has an answer. -/
def serve (it : Interpreter σ) (run : Node Token → Evaluation σ Unit) (expand : Expand σ)
    (rounds : Nat) (site : CallSite) (name : String) (args : List String) : Evaluation σ String :=
  if name = "" then Evaluation.failAt site.location (.emptyCallName site.kind)
  else do
    let context ← Evaluation.context
    if context.isStopped then pure ""
    else if 0 < it.limits.maxCallDepth && it.limits.maxCallDepth ≤ context.scopes.depth then
      Evaluation.failAt site.location (.depthCeiling it.limits.maxCallDepth)
    else
      let call : ActiveCall := ⟨name, site.kind, args, site.location⟩
      let definition := context.definition? site.kind name
      let answer ← Evaluation.inFrame (.ofCall call definition.isSome)
        (it.dispatch run expand rounds site definition call)
      pure (answer.getD "")

/-- Makes a call. Its name and its arguments are evaluated first; a vector as the name gives the
name and leading arguments. -/
def call (it : Interpreter σ) (run : Node Token → Evaluation σ Unit) (expand : Expand σ)
    (rounds : Nat) (site : CallSite) : Evaluation σ String := do
  let named ← site.name.slots expand
  let given ← Word.arguments expand site.args
  it.serve run expand rounds site (named.head?.getD "") (named.tail ++ given)

/-- Does what a piece of a script says, given how to run and to expand what stands in it. -/
def perform (it : Interpreter σ) (run : Node Token → Evaluation σ Unit) (expand : Expand σ)
    (rounds : Nat) (node : Node Token) : Evaluation σ Unit :=
  match node with
  | .script body => sequence (fun s => run (.statement s)) body
  | .statement (.block _ body) => sequence (fun s => run (.statement s)) body
  | .statement (.command name args) => do
    let _ ← it.call run expand rounds ⟨.command, name, args, none, node, node.start⟩
    pure ()
  | .statement (.control _ name args body) => do
    let _ ← it.call run expand rounds ⟨.control, name, args, some body, node, node.start⟩
    pure ()
  | .arguments _ | .word _ => Evaluation.failAt node.start (.notStatement node.kind)

mutual

/-- Runs a piece of a script as a statement. -/
def runNode (it : Interpreter σ) : (fuel : Nat) → Node Token → Evaluation σ Unit
  | 0, _ => Evaluation.exhausted
  | fuel + 1, node => do
    it.step node.start
    countStatement
    it.perform (runNode it fuel) (expand it fuel) fuel node

/-- Evaluates an expansion call. -/
def expand (it : Interpreter σ) : (fuel : Nat) → Token → Word Token → List (Word Token) →
    Evaluation σ String
  | 0, _, _, _ => Evaluation.exhausted
  | fuel + 1, origin, name, args => do
    it.step origin.start
    it.call (runNode it fuel) (expand it fuel) fuel
      ⟨.expansion, name, args, none, .word (.substitution origin name args), origin.start⟩

end

/-- The fuel of a run. Every statement and expansion that starts inside another takes a step first,
and so does every round of a loop, so a run under a step ceiling needs one unit more than the
ceiling. Without a ceiling, a run is given up after a number of nested starts that no machine
reaches. -/
def fuel (it : Interpreter σ) : Nat :=
  if it.limits.maxSteps = 0 then Nat.pow 2 62 else it.limits.maxSteps + 1

/-- Runs a piece of a script in a context as it is, without the start and the end of a run. -/
def interpret (it : Interpreter σ) (node : Node Token) : Evaluation σ Unit :=
  it.runNode it.fuel node

end Interpreter

end Scriptlet
