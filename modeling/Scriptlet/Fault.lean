import Scriptlet.Call
import Scriptlet.Excerpt
import Scriptlet.Numeric.Number
import Scriptlet.Syntax.Outline

/-!
# Why a run fails

Each fault is a cause; `kind` sorts it and `message` words it. A `RuntimeError` is a fault together
with the place and the calls in progress at which it was raised.
-/

namespace Scriptlet

/-- The sorts of faults. -/
inductive FaultKind where
  /-- A name that stands for nothing. -/
  | nameResolution
  /-- A text that is not the number it should be. -/
  | format
  /-- A ceiling that was reached. -/
  | resourceLimit
  /-- Anything else that a call reports. -/
  | handler
  deriving DecidableEq, Repr, Inhabited

/-- The sort in the words of a message. -/
def FaultKind.name : FaultKind → String
  | nameResolution => "name resolution"
  | format => "format"
  | resourceLimit => "resource limit"
  | handler => "handler"

/-- Why a run fails. -/
inductive Fault where
  /-- No variable has this name. -/
  | noVariable (name : String)
  /-- Neither a definition nor a handler answers to the name. -/
  | noCall (kind : CallKind) (name : String)
  /-- The name of a call evaluates to the empty text. -/
  | emptyCallName (kind : CallKind)
  /-- No scope around the current one binds the name. -/
  | noEnclosingBinding (name : String)
  /-- A table of callbacks was given a call it does not have. -/
  | noCallback (name : String)
  /-- A family of built-in calls was given a call it does not have. -/
  | notInFamily (family name : String)
  | notNumber (text : String)
  | notInteger (text : String)
  | stepCeiling (limit : Nat)
  | depthCeiling (limit : Nat)
  | rangeCeiling (limit : Int)
  /-- Something that is no statement was to be run as one. -/
  | notStatement (kind : NodeKind)
  /-- The argument with this number, counted from zero, is missing. -/
  | missingArgument (call : String) (index : Nat)
  | wrongArgumentCount (call : String) (expected given : Nat)
  /-- A call that takes any number of arguments from a minimum on was given fewer. -/
  | tooFewArguments (call : String) (minimum : Nat)
  /-- A definition that collects further arguments was given fewer than its parameters. -/
  | tooFewForDefinition (call : String) (minimum given : Nat)
  | noBody (call : String)
  | returnOutsideDefinition
  | unnamedDefinition
  | misplacedCollector (param : String)
  | definitionWithoutBody
  | loopWithoutIn (found : String)
  | division (fault : DivisionFault)
  | emptyVector
  | outputFailed (reason : String)
  | inputFailed (reason : String)
  /-- A fault that a host words itself. -/
  | custom (kind : FaultKind) (message : String)
  deriving DecidableEq, Repr

namespace Fault

/-- The sort of the fault. -/
def kind : Fault → FaultKind
  | noVariable _ | noCall _ _ | emptyCallName _ | noEnclosingBinding _ | noCallback _
  | notInFamily _ _ => .nameResolution
  | notNumber _ | notInteger _ => .format
  | stepCeiling _ | depthCeiling _ | rangeCeiling _ => .resourceLimit
  | custom kind _ => kind
  | _ => .handler

/-- The ending of a noun that stands behind this number. -/
def plural (n : Nat) : String :=
  if n = 1 then "" else "s"

/-- The fault in words. -/
def message : Fault → String
  | noVariable name => s!"no such variable '{name}'"
  | noCall kind name => s!"{kind.name} '{name}' not found"
  | emptyCallName kind => s!"{kind.name} name must not be empty"
  | noEnclosingBinding name => s!"nonlocal: no enclosing scope binds '{name}'"
  | noCallback name => s!"no callback registered for '{name}'"
  | notInFamily family name => s!"{family}: unknown call '{name}'"
  | notNumber text => s!"{Text.quoted text} is not a valid int or float"
  | notInteger text => s!"{Text.quoted text} is not a valid integer"
  | stepCeiling limit => s!"maximum of {limit} evaluation steps exceeded"
  | depthCeiling limit => s!"maximum call depth of {limit} exceeded"
  | rangeCeiling limit => s!"rangev: ranges are limited to {limit} items"
  | notStatement kind => s!"{kind.name} is not a statement"
  | missingArgument call index => s!"{call}: missing argument {index + 1}"
  | wrongArgumentCount call expected given =>
    s!"{call}: expected {expected} argument{plural expected}, got {given}"
  | tooFewArguments call minimum =>
    s!"{call}: requires at least {minimum} argument{plural minimum}"
  | tooFewForDefinition call minimum given =>
    s!"{call}: expected at least {minimum} argument{plural minimum}, got {given}"
  | noBody call => s!"{call}: call has no body"
  | returnOutsideDefinition => "return outside of a defined call"
  | unnamedDefinition => "def: call name must not be empty"
  | misplacedCollector param =>
    s!"def: only the last parameter may collect arguments, not '{param}'"
  | definitionWithoutBody => "def: missing body"
  | loopWithoutIn found => s!"for: expected 'in', found '{found}'"
  | division fault => fault.message
  | emptyVector => "vhead: vector is empty"
  | outputFailed reason => s!"print: {reason}"
  | inputFailed reason => s!"input: {reason}"
  | custom _ message => message

end Fault

/-- A fault, where it was raised, and the calls then in progress, outermost first. A fault that no
run has placed yet has no location. -/
structure RuntimeError where
  fault : Fault
  location : Option Location
  backtrace : List ActiveCall
  deriving DecidableEq, Repr

namespace RuntimeError

/-- A fault that has no place yet. -/
def ofFault (fault : Fault) : RuntimeError :=
  ⟨fault, none, []⟩

/-- Gives the error a place. An error that has one keeps it, so the innermost place counts. -/
def locate (e : RuntimeError) (location : Location) (backtrace : List ActiveCall) : RuntimeError :=
  match e.location with
  | some _ => e
  | none => { e with location := some location, backtrace := backtrace }

/-- The sort of the error. -/
def kind (e : RuntimeError) : FaultKind :=
  e.fault.kind

/-- What is wrong. -/
def message (e : RuntimeError) : String :=
  e.fault.message

/-- The error on one line. -/
def describe (e : RuntimeError) : String :=
  s!"{e.kind.name} error: {e.message}"

/-- The error with the calls in progress and the lines of the script it points into. -/
def render (e : RuntimeError) (source : String) : String :=
  let calls :=
    if e.backtrace.isEmpty then []
    else "backtrace (innermost call last):" :: e.backtrace.map fun call => "  " ++ call.describe
  let site := match e.location with
    | some location => Excerpt.render source location e.describe
    | none => e.describe
  "\n".intercalate (calls ++ [site])

end RuntimeError

end Scriptlet
