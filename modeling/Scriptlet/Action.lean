import Scriptlet.Context
import Scriptlet.Fault
import Scriptlet.Syntax.Outline

/-!
# What a handler does

A handler answers a call with an `Action`: a description of what it reads, changes and runs, one
step after the other. The interpreter carries actions out. An action can look at the context, make
an `Update`, use the state of the host, run the body of its call, and evaluate the arguments of its
call again; it cannot touch the frames of other calls.
-/

namespace Scriptlet

/-- A call as its handler sees it. -/
structure Call where
  /-- The name as called, the kind, the evaluated arguments and the place. -/
  active : ActiveCall
  /-- The piece of the script that is the call. -/
  node : Node Token
  /-- The statement that a control call decides about. -/
  body : Option (Statement Token)
  deriving Repr

/-- The name as called. -/
def Call.name (call : Call) : String :=
  call.active.name

/-- The evaluated arguments. -/
def Call.args (call : Call) : List String :=
  call.active.args

/-- What is left to do for a call, `σ` being the state of the host. -/
inductive Action (σ α : Type) : Type where
  /-- Nothing more: the answer. -/
  | done (answer : α)
  /-- Fails. -/
  | raise (error : RuntimeError)
  /-- Looks at the context. -/
  | inspect (rest : Context → Action σ α)
  /-- Changes the context. -/
  | update (change : Update) (rest : Action σ α)
  /-- Looks at the state of the host. -/
  | readHost (rest : σ → Action σ α)
  /-- Replaces the state of the host. -/
  | writeHost (host : σ) (rest : Action σ α)
  /-- Runs the body of the call and goes on with the error it ended in, if any. -/
  | runBody (rest : Option RuntimeError → Action σ α)
  /-- Evaluates the arguments of the call again. -/
  | rereadArgs (rest : Except RuntimeError (List String) → Action σ α)
  /-- Learns how many rounds a loop can take before the interpreter gives up. -/
  | rounds (rest : Nat → Action σ α)
  /-- The rounds are used up. -/
  | exhausted

namespace Action

variable {σ α β : Type}

/-- First one action, then the action chosen by its answer. -/
def andThen (next : α → Action σ β) : Action σ α → Action σ β
  | done answer => next answer
  | raise error => raise error
  | inspect rest => inspect fun c => (rest c).andThen next
  | update change rest => update change (rest.andThen next)
  | readHost rest => readHost fun h => (rest h).andThen next
  | writeHost host rest => writeHost host (rest.andThen next)
  | runBody rest => runBody fun e => (rest e).andThen next
  | rereadArgs rest => rereadArgs fun args => (rest args).andThen next
  | rounds rest => rounds fun n => (rest n).andThen next
  | exhausted => exhausted

instance : Monad (Action σ) where
  pure := done
  bind action next := action.andThen next

/-- Fails with a fault that the interpreter places. -/
def fail (fault : Fault) : Action σ α :=
  raise (.ofFault fault)

/-- The context. -/
def context : Action σ Context :=
  inspect done

/-- Makes a change. -/
def change (u : Update) : Action σ Unit :=
  update u (done ())

/-- The state of the host. -/
def host : Action σ σ :=
  readHost done

/-- Changes the state of the host. -/
def modifyHost (f : σ → σ) : Action σ Unit :=
  readHost fun h => writeHost (f h) (done ())

/-- Runs the body of the call; its error is an error of the call. -/
def body : Action σ Unit :=
  runBody fun
    | none => done ()
    | some error => raise error

/-- Evaluates the arguments of the call again; an error is an error of the call. -/
def arguments : Action σ (List String) :=
  rereadArgs fun
    | .ok args => done args
    | .error error => raise error

/-- Whether execution is on its way out of something. -/
def interrupted : Action σ Bool :=
  inspect fun c => done c.isInterrupted

/-- The answer of a computation that cannot touch anything, or its fault. -/
def ofExcept : Except Fault α → Action σ α
  | .ok answer => done answer
  | .error fault => fail fault

/-- The value of a variable, which must have one. -/
def variableValue (name : String) : Action σ String :=
  inspect fun c =>
    match c.get? name with
    | some value => done value
    | none => fail (.noVariable name)

/-- Takes a variable away, which must have a value. -/
def unset (name : String) : Action σ Unit := do
  let _ ← variableValue name
  change (.unset name)

/-- Whether the statement right before the call left its chain open. -/
def chainOpen : Action σ Bool :=
  inspect fun c => done c.scopes.parent.chainOpen

end Action

namespace Call

/-- The argument with this number, counted from zero. -/
def arg (call : Call) (index : Nat) : Except Fault String :=
  match call.args[index]? with
  | some arg => .ok arg
  | none => .error (.missingArgument call.name index)

/-- Fails unless there are exactly so many arguments. -/
def requireArgs (call : Call) (count : Nat) : Except Fault Unit :=
  if call.args.length = count then .ok ()
  else .error (.wrongArgumentCount call.name count call.args.length)

/-- Fails unless there are at least so many arguments. -/
def requireMinArgs (call : Call) (count : Nat) : Except Fault Unit :=
  if count ≤ call.args.length then .ok () else .error (.tooFewArguments call.name count)

end Call

end Scriptlet
