import Scriptlet.Generator
import Scriptlet.Interpreter.Run
import Scriptlet.Library.Base
import Scriptlet.Library.Stdio
import Scriptlet.Text.Backspace

/-!
# The command line

With an argument, the script in the file of that name is run. Without one, lines are read and run as
they come, on one context: lines are gathered until they are complete or can never be, and a failure
is shown and forgotten. All of it is a function of what the program is given.
-/

namespace Scriptlet.Console

/-- The state of the program: its streams, and the generator behind random choices. -/
structure Host where
  streams : Streams
  generator : Generator

/-- The streams of the program. -/
def streams : Slot Host Streams :=
  ⟨Host.streams, fun streams host => { host with streams := streams }⟩

/-- The generator of the program. -/
def generator : Slot Host Generator :=
  ⟨Host.generator, fun generator host => { host with generator := generator }⟩

/-- The base library with printing and reading lines. -/
def interpreter : Interpreter Host :=
  (Library.addBase generator .empty).addHandler .command "stdio" (Library.stdio streams)

/-- What the program leaves behind. -/
structure Report where
  exitCode : Nat
  output : String
  errors : String
  deriving DecidableEq, Repr

/-- The state before anything has run. -/
def start (input : List UInt8) (seed : Nat) : Host :=
  ⟨.ofBytes input, .ofSeed seed⟩

/-- Runs a script. A failure goes to the error stream. -/
def runScript (source : String) (input : List UInt8) (seed : Nat) : Report :=
  match interpreter.runFresh source (start input seed) with
  | none => ⟨1, "", ""⟩
  | some (.ok _, host) => ⟨0, host.streams.output, ""⟩
  | some (.error failure, host) => ⟨1, host.streams.output, failure.render source ++ "\n"⟩

/-- Why a file cannot be read, in the words of the operating system, and its number for it. -/
structure FileFault where
  reason : String
  code : Nat
  deriving DecidableEq, Repr

/-- There is no file of that name. -/
def FileFault.missing : FileFault :=
  ⟨"No such file or directory", 2⟩

/-- There is a directory of that name. -/
def FileFault.isDirectory : FileFault :=
  ⟨"Is a directory", 21⟩

/-- The name goes on behind a file as if it were a directory. -/
def FileFault.notDirectory : FileFault :=
  ⟨"Not a directory", 20⟩

/-- The report on a script that cannot be read. -/
def unreadable (name reason : String) : Report :=
  ⟨1, "", name ++ ": " ++ reason ++ "\n"⟩

/-- Runs the script in a file. -/
def runFile (name : String) (contents : Except FileFault (List UInt8)) (input : List UInt8)
    (seed : Nat) : Report :=
  match contents with
  | .error fault => unreadable name (fault.reason ++ s!" (os error {fault.code})")
  | .ok bytes =>
    match Input.decode? bytes with
    | none => unreadable name Input.notUtf8
    | some source => runScript source input seed

/-- A line without the line feed it ends with, and the carriage return before that. -/
def dropLineFeed (line : String) : String :=
  match line.toList.reverse with
  | '\n' :: '\r' :: rest => .ofList rest.reverse
  | '\n' :: rest => .ofList rest.reverse
  | _ => line

/-- The line that was typed, with its corrections made and without its end. -/
def typedLine (line : String) : String :=
  .ofList (Text.applyBackspaces (dropLineFeed line).toList)

/-- Lines being read and run: the lines gathered so far, and the state. -/
structure Session where
  buffer : String
  state : State Host

namespace Session

/-- Writes a line. -/
def say (s : Session) (text : String) : Session :=
  let host := s.state.host
  let streams := (host.streams.write (text ++ "\n")).2
  { s with state := { s.state with host := { host with streams := streams } } }

/-- Runs what was gathered, and shows a failure. -/
def runBuffer (s : Session) : Session :=
  match interpreter.run s.buffer s.state with
  | none => { s with buffer := "" }
  | some (.ok _, state) => ⟨"", state⟩
  | some (.error failure, state) => (Session.mk "" state).say (failure.render s.buffer)

/-- Takes a line, and runs what was gathered unless it needs more. -/
def feed (s : Session) (line : String) : Session :=
  let s := { s with buffer := s.buffer ++ line ++ "\n" }
  match completeness interpreter.options s.buffer with
  | .incomplete => s
  | _ => s.runBuffer

/-- Takes the next line of the input out of it. -/
def readLine (s : Session) : List UInt8 × Session :=
  let host := s.state.host
  let (bytes, input) := host.streams.input.consoleLine
  let streams := { host.streams with input := input }
  (bytes, { s with state := { s.state with host := { host with streams := streams } } })

/-- Takes lines until there are no more or one is no text. -/
def feedAll : (lines : Nat) → Session → Session
  | 0, s => s
  | lines + 1, s =>
    let (bytes, s) := s.readLine
    if bytes.isEmpty then s.say "CTRL-D"
    else
      match Input.decode? bytes with
      | none =>
        s.say ("Error: Io(Error \x7b kind: InvalidData, message: " ++
          Text.quoted Input.notUtf8 ++ " \x7d)")
      | some line => feedAll lines (s.feed (typedLine line))

end Session

/-- Reads and runs lines until the input ends. -/
def runLines (input : List UInt8) (seed : Nat) : Report :=
  let host := start input seed
  match interpreter.newContext with
  | .error error => ⟨0, error.describe ++ "\n", ""⟩
  | .ok context =>
    let session := Session.feedAll (input.length + 1) ⟨"", context, host⟩
    ⟨0, session.state.host.streams.output, ""⟩

/-- Runs the program. Only the first argument counts. -/
def run (args : List String) (readFile : String → Except FileFault (List UInt8))
    (input : List UInt8) (seed : Nat) : Report :=
  match args with
  | [] => runLines input seed
  | name :: _ => runFile name (readFile name) input seed

end Scriptlet.Console
