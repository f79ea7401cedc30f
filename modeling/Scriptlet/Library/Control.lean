import Scriptlet.Handler
import Scriptlet.Reading

/-!
# Control calls

Loops, choices and definitions: `repeat`, `for`, `if`, `elif`, `else`, `while` and `def`.
-/

namespace Scriptlet.Library

variable {σ : Type}

/-- Runs the body so many times, or until execution is on its way out. -/
def repeatBody : (times : Nat) → Action σ Unit
  | 0 => pure ()
  | times + 1 => do
    .body
    if ← .interrupted then pure () else repeatBody times

/-- Runs the body as often as the argument says; a negative number says never. -/
def repeatTimes : Callback σ := fun call => do
  .ofExcept (call.requireArgs 1)
  let times ← .ofExcept (call.arg 0 >>= Reading.integer)
  repeatBody times.toInt.toNat
  pure none

/-- Runs the body once for each item, which the variable holds meanwhile, or until execution is on
its way out. -/
def forItems (name : String) : List String → Action σ Unit
  | [] => pure ()
  | item :: items => do
    .change (.set name item)
    .body
    if ← .interrupted then pure () else forItems name items

/-- Runs the body once for each argument behind the word `in`. The variable is gone afterwards. -/
def forIn : Callback σ := fun call => do
  .ofExcept (call.requireMinArgs 2)
  match call.args with
  | name :: word :: items =>
    if word = "in" then
      forItems name items
      .change (.unset name)
    else .fail (.loopWithoutIn word)
  | _ => pure ()
  pure none

/-- Runs the body if the text is true, and leaves the chain open if it is not. -/
def choose (condition : String) : Action σ Unit := do
  let isTrue := Reading.isTrue condition
  .change (.setChain !isTrue)
  if isTrue then .body else pure ()

/-- Runs the body if the argument is true. -/
def ifTrue : Callback σ := fun call => do
  .ofExcept (call.requireArgs 1)
  choose (← .ofExcept (call.arg 0))
  pure none

/-- Runs the body if the chain is open and the argument is true. -/
def elseIf : Callback σ := fun call => do
  .ofExcept (call.requireArgs 1)
  if ← .chainOpen then choose (← .ofExcept (call.arg 0)) else pure ()
  pure none

/-- Runs the body if the chain is open, and closes it. -/
def otherwise : Callback σ := fun call => do
  .ofExcept (call.requireArgs 0)
  if ← .chainOpen then
    .change (.setChain false)
    .body
  else pure ()
  pure none

/-- Runs the body as long as the condition is true, or until execution is on its way out. After each
round the condition is read again from the arguments of the call, put together with spaces. -/
def whileRounds : (rounds : Nat) → (condition : String) → Action σ Unit
  | 0, condition => if Reading.isTrue condition then .exhausted else pure ()
  | rounds + 1, condition =>
    if Reading.isTrue condition then do
      .body
      if ← .interrupted then pure ()
      else
        let args ← .arguments
        whileRounds rounds (Text.unwords args)
    else pure ()

/-- Runs the body as long as the argument is true. -/
def whileTrue : Callback σ := fun call => do
  .ofExcept (call.requireArgs 1)
  let condition ← .ofExcept (call.arg 0)
  .rounds fun rounds => whileRounds rounds condition
  pure none

/-- Whether a parameter collects arguments, and its name if it does. -/
def collector? (param : String) : Option String :=
  match param.toList with
  | '*' :: name => some (.ofList name)
  | _ => none

/-- The parameters that take one argument each, and the collector that may follow them. -/
def splitParams (params : List String) : List String × Option String :=
  match params.getLast?.bind collector? with
  | some collector => (params.dropLast, some collector)
  | none => (params, none)

/-- The definition of a call with the name, parameters and body. A body in which a command is
literally named `return` makes it an expansion, any other a command. -/
def definitionOf (name : String) (params : List String) (body : Statement Token) :
    Except Fault Definition :=
  if name = "" then .error .unnamedDefinition
  else
    let (params, collector) := splitParams params
    match params.find? fun param => (collector? param).isSome with
    | some param => .error (.misplacedCollector param)
    | none =>
      let kind := if body.names "return" then .expansion else .command
      .ok ⟨name, kind, params, collector, body⟩

/-- Defines a call with the first argument as its name and the others as its parameters. -/
def define : Callback σ := fun call => do
  .ofExcept (call.requireMinArgs 1)
  match call.body with
  | none => .fail .definitionWithoutBody
  | some body =>
    let definition ←
      .ofExcept (definitionOf (call.args.head?.getD "") call.args.tail body)
    .change (.define definition)
  pure none

/-- The control calls of this family. -/
def controls : Callbacks σ :=
  .ofList
    [("repeat", repeatTimes), ("for", forIn), ("if", ifTrue), ("elif", elseIf),
      ("else", otherwise), ("while", whileTrue), ("def", define)]

end Scriptlet.Library
