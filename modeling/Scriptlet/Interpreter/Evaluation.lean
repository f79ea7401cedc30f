import Scriptlet.Interpreter.Basic

/-!
# Evaluations

An evaluation takes a state to a result and a new state. An error keeps what was changed before it.
An evaluation that needs more fuel than it was given has no result at all.
-/

namespace Scriptlet

/-- A computation on a state: nothing if the fuel gave out, else a result and the new state. -/
def Evaluation (σ α : Type) : Type :=
  State σ → Option (Except RuntimeError α × State σ)

namespace Evaluation

variable {σ α β : Type}

/-- First one evaluation, then, unless it failed, the one chosen by its result. -/
def andThen (x : Evaluation σ α) (next : α → Evaluation σ β) : Evaluation σ β := fun s =>
  match x s with
  | none => none
  | some (.error error, s) => some (.error error, s)
  | some (.ok value, s) => next value s

instance : Monad (Evaluation σ) where
  pure value := fun s => some (.ok value, s)
  bind := andThen

/-- The fuel gave out. -/
def exhausted : Evaluation σ α := fun _ => none

/-- The context. -/
def context : Evaluation σ Context := fun s =>
  some (.ok s.context, s)

/-- Changes the context. -/
def modify (f : Context → Context) : Evaluation σ Unit := fun s =>
  some (.ok (), { s with context := f s.context })

/-- The state of the host. -/
def host : Evaluation σ σ := fun s =>
  some (.ok s.host, s)

/-- Replaces the state of the host. -/
def setHost (host : σ) : Evaluation σ Unit := fun s =>
  some (.ok (), { s with host := host })

/-- Tells the observer of an event and the context in which it happens. -/
def notify (observe : Event → Context → σ → σ) (event : Event) : Evaluation σ Unit := fun s =>
  some (.ok (), { s with host := observe event s.context s.host })

/-- Fails with an error as it is. -/
def raise (error : RuntimeError) : Evaluation σ α := fun s =>
  some (.error error, s)

/-- Fails with a fault that the call in progress will place. -/
def fail (fault : Fault) : Evaluation σ α :=
  raise (.ofFault fault)

/-- Fails with a fault at a place, with the calls now in progress. -/
def failAt (location : Location) (fault : Fault) : Evaluation σ α := do
  let c ← context
  raise ((RuntimeError.ofFault fault).locate location c.scopes.backtrace)

/-- Evaluates, and takes a failure for a result like any other. -/
def attempt (x : Evaluation σ α) : Evaluation σ (Except RuntimeError α) := fun s =>
  match x s with
  | none => none
  | some (result, s) => some (.ok result, s)

/-- The error that a result stands for, if it is none. -/
def error? : Except RuntimeError α → Option RuntimeError
  | .ok _ => none
  | .error error => some error

/-- The state with other scopes. -/
def withScopes (f : ScopeStack → ScopeStack) (s : State σ) : State σ :=
  { s with context := s.context.withScopes f }

/-- Evaluates with one more frame, which is left again whatever happens. An error without a place is
placed at the call before its frame is left. -/
def inFrame (frame : Frame) (x : Evaluation σ α) : Evaluation σ α := fun s =>
  match x (withScopes (·.push frame) s) with
  | none => none
  | some (.ok value, s) => some (.ok value, withScopes (·.pop) s)
  | some (.error error, s) =>
    some (.error (error.locate frame.call.location s.context.scopes.backtrace),
      withScopes (·.pop) s)

/-- Carries out an action, given how to run the body of its call and how to evaluate its arguments
again, and the rounds its loops can take. -/
def ofAction (body : Evaluation σ Unit) (arguments : Evaluation σ (List String)) (rounds : Nat) :
    Action σ α → Evaluation σ α
  | .done answer => pure answer
  | .raise error => raise error
  | .inspect rest => do
    let c ← context
    ofAction body arguments rounds (rest c)
  | .update change rest => do
    modify (·.update change)
    ofAction body arguments rounds rest
  | .readHost rest => do
    let h ← host
    ofAction body arguments rounds (rest h)
  | .writeHost host rest => do
    setHost host
    ofAction body arguments rounds rest
  | .runBody rest => do
    let result ← attempt body
    ofAction body arguments rounds (rest (error? result))
  | .rereadArgs rest => do
    let result ← attempt arguments
    ofAction body arguments rounds (rest result)
  | .rounds rest => ofAction body arguments rounds (rest rounds)
  | .exhausted => exhausted

end Evaluation

/-- How an expansion call at a token, with a name and arguments, is evaluated to its text. -/
abbrev Expand (σ : Type) : Type :=
  Token → Word Token → List (Word Token) → Evaluation σ String

namespace Word

variable {σ : Type}

mutual

/-- The text that a word evaluates to. A vector is its words with one space between each two. -/
def evaluate (expand : Expand σ) : Word Token → Evaluation σ String
  | literal _ content => pure content
  | reference origin name => do
    let name ← name.evaluate expand
    match (← Evaluation.context).get? name with
    | some value => pure value
    | none => Evaluation.failAt origin.start (.noVariable name)
  | substitution origin name args => expand origin name args
  | vector _ target => do
    let value ← target.evaluate expand
    pure (Text.unwords (Text.words value))
  | glued pieces => do
    let values ← evaluateAll expand pieces
    pure (String.join values)

/-- The texts that words evaluate to, in order. -/
def evaluateAll (expand : Expand σ) : List (Word Token) → Evaluation σ (List String)
  | [] => pure []
  | word :: words => do
    let value ← word.evaluate expand
    let values ← evaluateAll expand words
    pure (value :: values)

end

/-- The arguments that a word stands for: each word of a vector, one text otherwise. -/
def slots (expand : Expand σ) (word : Word Token) : Evaluation σ (List String) := do
  let value ← word.evaluate expand
  match word with
  | vector _ _ => pure (Text.words value)
  | _ => pure [value]

/-- The arguments that words stand for, in order. -/
def arguments (expand : Expand σ) : List (Word Token) → Evaluation σ (List String)
  | [] => pure []
  | word :: words => do
    let first ← word.slots expand
    let rest ← arguments expand words
    pure (first ++ rest)

end Word

end Scriptlet
