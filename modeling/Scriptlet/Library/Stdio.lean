import Scriptlet.Handler
import Scriptlet.Library.Input
import Scriptlet.Library.Slot

/-!
# Printing and reading lines

The commands `print` and `input`, on streams that the host keeps.
-/

namespace Scriptlet

/-- What is left to read and what was written. -/
structure Streams where
  input : Input
  /-- The texts that were written, the latest first. -/
  written : List String
  /-- Why nothing can be written, if nothing can. -/
  broken : Option String
  deriving DecidableEq, Repr, Inhabited

namespace Streams

/-- Streams that nothing was written to. -/
def ofBytes (bytes : List UInt8) : Streams :=
  ⟨.ofBytes bytes, [], none⟩

/-- Everything that was written. -/
def output (s : Streams) : String :=
  String.join s.written.reverse

/-- Writes a text, or says why it cannot be written. -/
def write (text : String) (s : Streams) : Except Fault Unit × Streams :=
  match s.broken with
  | some reason => (.error (.outputFailed reason), s)
  | none => (.ok (), { s with written := text :: s.written })

/-- Reads a line of a script. A line that is no text is used up too. -/
def readLine (s : Streams) : Except Fault String × Streams :=
  let (bytes, input) := s.input.scriptLine
  let s := { s with input := input }
  match Input.decode? bytes with
  | some line => (.ok line, s)
  | none => (.error (.inputFailed Input.notUtf8), s)

/-- A line without the line feeds and carriage returns at its end. -/
def dropLineEnd (line : String) : String :=
  .ofList (line.toList.reverse.dropWhile fun c => c = '\n' || c = '\r').reverse

end Streams

namespace Library

variable {σ : Type}

/-- Writes the arguments, put together with spaces, and a line feed. -/
def print (slot : Slot σ Streams) : Callback σ := fun call => do
  let result ← slot.use (Streams.write (Text.unwords call.args ++ "\n"))
  .ofExcept result
  pure none

/-- Reads a line into the variable named by the argument. -/
def input (slot : Slot σ Streams) : Callback σ := fun call => do
  .ofExcept (call.requireArgs 1)
  let result ← slot.use Streams.readLine
  let line ← .ofExcept result
  .change (.set (call.args.head?.getD "") (Streams.dropLineEnd line))
  pure none

/-- The handler of printing and reading. -/
def stdio (slot : Slot σ Streams) : Handler σ where
  answersTo name := ["print", "input"].contains name
  invoke call :=
    match call.name with
    | "print" => print slot call
    | "input" => input slot call
    | other => .fail (.notInFamily "stdio" other)

end Library

end Scriptlet
