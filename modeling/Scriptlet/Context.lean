import Scriptlet.Scope
import Scriptlet.Syntax.Basic

/-!
# Contexts

What a run works on: the scopes, the calls that scripts have defined, where execution goes next, and
how many steps have been taken. A context may serve several runs; its global variables and its
definitions last. All that a handler can do to a context is an `Update`.
-/

namespace Scriptlet

/-- Where execution goes after the current statement. -/
inductive Flow where
  | next
  /-- To the end of the innermost call of a definition. -/
  | leaving
  /-- To the end of the run. -/
  | stopped
  deriving DecidableEq, Repr, Inhabited

/-- A call that a script has defined. -/
structure Definition where
  name : String
  kind : CallKind
  params : List String
  /-- The parameter that collects the arguments behind the others. -/
  collector : Option String
  body : Statement Token
  deriving Repr

/-- What a run works on. -/
structure Context where
  scopes : ScopeStack
  definitions : Table (CallKind × String) Definition
  flow : Flow
  /-- The statements and expansions started in the last run. -/
  steps : Nat
  deriving Repr

namespace Context

/-- A context in which nothing has run. -/
def initial : Context :=
  ⟨.initial, .empty, .next, 0⟩

instance : Inhabited Context := ⟨initial⟩

/-- The value of a variable. -/
def get? (c : Context) (name : String) : Option String :=
  c.scopes.get? name

/-- Whether a script has defined a call of this kind and name. -/
def isDefined (c : Context) (kind : CallKind) (name : String) : Bool :=
  c.definitions.contains (kind, name)

/-- The definition that a call runs. No control call runs one. -/
def definition? (c : Context) (kind : CallKind) (name : String) : Option Definition :=
  match kind with
  | .control => none
  | _ => c.definitions.get? (kind, name)

/-- Whether the run was stopped. -/
def isStopped (c : Context) : Bool :=
  c.flow = .stopped

/-- Whether execution is on its way out of something. -/
def isInterrupted (c : Context) : Bool :=
  c.flow ≠ .next

/-- The context at the start of a run. -/
def beginRun (c : Context) : Context :=
  { c with scopes := c.scopes.unwind, flow := .next, steps := 0 }

/-- The context at the end of a run. -/
def endRun (c : Context) : Context :=
  { c with scopes := c.scopes.unwind }

/-- The context with other scopes. -/
def withScopes (c : Context) (f : ScopeStack → ScopeStack) : Context :=
  { c with scopes := f c.scopes }

end Context

/-- The changes that a handler can make to a context. -/
inductive Update where
  | set (name value : String)
  | unset (name : String)
  | declareGlobal (name : String)
  | declareNonlocal (name : String)
  /-- Opens or closes the else-chain of the frame around the call. -/
  | setChain (isOpen : Bool)
  /-- Hands a result to the innermost call of a definition and leaves it. -/
  | leave (result : String)
  | stop
  | define (definition : Definition)
  deriving Repr

/-- Makes a change. A change without a place to be made, a nonlocal name that nothing binds or a
result that no call waits for, does nothing. -/
def Context.update (c : Context) : Update → Context
  | .set name value => c.withScopes (·.set name value)
  | .unset name => c.withScopes (·.unset name)
  | .declareGlobal name => c.withScopes (·.declareGlobal name)
  | .declareNonlocal name => c.withScopes fun s => (s.declareNonlocal? name).getD s
  | .setChain isOpen => c.withScopes (·.modifyParent (·.setChain isOpen))
  | .leave result =>
    match c.scopes.setResult? result with
    | some scopes => { c with scopes := scopes, flow := .leaving }
    | none => c
  | .stop => { c with flow := .stopped }
  | .define definition =>
    { c with definitions := c.definitions.insert (definition.kind, definition.name) definition }

end Scriptlet
