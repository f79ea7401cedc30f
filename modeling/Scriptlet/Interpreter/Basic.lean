import Scriptlet.Handler
import Scriptlet.Syntax.Script

/-!
# Interpreters

An interpreter is a set of handlers together with the ceilings that keep scripts in bounds and the
way texts are read. It holds no state of its own: a run works on a `State`, a context and the state
of the host.
-/

namespace Scriptlet

/-- Ceilings for a run; zero stands for none. -/
structure Limits where
  /-- The calls that may be in progress at once. -/
  maxCallDepth : Nat := 128
  /-- The statements and expansions that a run may start. -/
  maxSteps : Nat := 1000000
  /-- The levels of statements and words that may nest in a script. -/
  maxNesting : Nat := defaultMaxNesting
  deriving DecidableEq, Repr, Inhabited

/-- What an observer is told. -/
inductive Event where
  /-- A statement or an expansion at this place starts. -/
  | step (location : Location)
  /-- A call of a definition starts. -/
  | definition (call : ActiveCall)
  /-- A call that a handler serves starts. -/
  | handler (call : ActiveCall)
  deriving DecidableEq, Repr

/-- What a run works on: a context and the state of the host. -/
structure State (σ : Type) where
  context : Context
  host : σ

/-- Handlers, ceilings and reading options. -/
structure Interpreter (σ : Type) where
  registry : Registry σ
  limits : Limits
  options : Options
  /-- What is done, in order, to every fresh context. -/
  initializers : List (Context → Except RuntimeError Context)
  /-- What a host that watches a run notes down of an event and the context it happens in. -/
  observe : Event → Context → σ → σ

namespace Interpreter

variable {σ : Type}

/-- The interpreter without handlers. -/
def empty : Interpreter σ where
  registry := .empty
  limits := {}
  options := {}
  initializers := []
  observe := fun _ _ host => host

/-- The interpreter with other ceilings. -/
def withLimits (it : Interpreter σ) (limits : Limits) : Interpreter σ :=
  { it with limits := limits }

/-- Registers a handler. -/
def addHandler (it : Interpreter σ) (kind : CallKind) (name : String) (handler : Handler σ) :
    Interpreter σ :=
  { it with registry := it.registry.add kind name handler }

/-- Adds something to be done to every fresh context. -/
def addInitializer (it : Interpreter σ) (f : Context → Except RuntimeError Context) :
    Interpreter σ :=
  { it with initializers := it.initializers ++ [f] }

/-- A fresh context. -/
def newContext (it : Interpreter σ) : Except RuntimeError Context :=
  it.initializers.foldlM (fun c f => f c) Context.initial

/-- Reads a script. -/
def parse (it : Interpreter σ) (source : String) : Except ParseError Script :=
  Script.parse it.options it.limits.maxNesting source

/-- The handlers, ceilings and options. -/
def describe (it : Interpreter σ) : String :=
  let triggers := it.options.triggers.entries.map fun (name, count) =>
    Text.quoted name ++ s!": {count}"
  "Interpreter \x7b registry: " ++ it.registry.describe ++
    s!", limits: Limits \x7b max_call_depth: {it.limits.maxCallDepth}" ++
    s!", max_steps: {it.limits.maxSteps}, max_nesting: {it.limits.maxNesting} \x7d" ++
    s!", options: TokenizerOptions \x7b comments: {it.options.comments}" ++
    s!", quotes: {it.options.quotes}, newline_separates: {it.options.newlineSeparates}" ++
    ", consume_rest_triggers: \x7b" ++ ", ".intercalate triggers ++
    s!"\x7d, consume_rest_all: {it.options.verbatimToEnd} \x7d \x7d"

end Interpreter

end Scriptlet
