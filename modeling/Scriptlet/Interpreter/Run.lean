import Scriptlet.Interpreter.Statements

/-!
# Runs

A run reads a text, starts from the global frame with no steps taken, and leaves every frame again
at its end, however it ends.
-/

namespace Scriptlet

/-- Why a text could not be run to its end. -/
inductive Failure where
  | parse (error : ParseError)
  | runtime (error : RuntimeError)
  deriving DecidableEq, Repr

/-- The failure with the lines of the text it is about. -/
def Failure.render (source : String) : Failure → String
  | parse error => error.render source
  | runtime error => error.render source

namespace Interpreter

variable {σ : Type}

/-- Runs a piece of a script. -/
def runPiece (it : Interpreter σ) (node : Node Token) : Evaluation σ Unit := fun s =>
  match it.interpret node { s with context := s.context.beginRun } with
  | none => none
  | some (result, s) => some (result, { s with context := s.context.endRun })

/-- Runs a script that was read before. -/
def runScript (it : Interpreter σ) (script : Script) : Evaluation σ Unit :=
  it.runPiece script.root

/-- The result of a run whose text could be read. -/
def ofRun (result : Option (Except RuntimeError Unit × State σ)) :
    Option (Except Failure Unit × State σ) :=
  result.map fun (result, s) => (result.mapError .runtime, s)

/-- Reads a text and runs it. -/
def run (it : Interpreter σ) (source : String) (s : State σ) :
    Option (Except Failure Unit × State σ) :=
  match it.parse source with
  | .error error => some (.error (.parse error), s)
  | .ok script => ofRun (it.runScript script s)

/-- Reads a text that holds at most one statement and runs it. -/
def runStatement (it : Interpreter σ) (source : String) (s : State σ) :
    Option (Except Failure Unit × State σ) :=
  match Script.parseStatement it.options it.limits.maxNesting source with
  | .error error => some (.error (.parse error), s)
  | .ok none => some (.ok (), s)
  | .ok (some statement) => ofRun (it.runPiece (.statement statement) s)

/-- Runs a script that was read before in a fresh context. -/
def runScriptFresh (it : Interpreter σ) (script : Script) (host : σ) :
    Option (Except RuntimeError Context × σ) :=
  match it.newContext with
  | .error error => some (.error error, host)
  | .ok context =>
    (it.runScript script ⟨context, host⟩).map fun (result, s) => (result.map fun _ => s.context, s.host)

/-- Reads a text and runs it in a fresh context. -/
def runFresh (it : Interpreter σ) (source : String) (host : σ) :
    Option (Except Failure Context × σ) :=
  match it.parse source with
  | .error error => some (.error (.parse error), host)
  | .ok script =>
    (it.runScriptFresh script host).map fun (result, host) => (result.mapError .runtime, host)

end Interpreter

end Scriptlet
