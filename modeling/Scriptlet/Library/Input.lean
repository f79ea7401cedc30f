/-!
# Input in blocks

A stream of bytes that two readers share: a console, which reads the lines it runs, and the scripts
it runs, which read lines of their own. Each takes the stream in by blocks, and what one has taken
in the other does not see, except that a script's reader takes in the console's block before it
turns to the stream.
-/

namespace Scriptlet

/-- Bytes that nothing has used yet. -/
structure Input where
  /-- What the reader of scripts has taken in. -/
  script : List UInt8
  /-- What the reader of the console has taken in. -/
  console : List UInt8
  /-- What neither has taken in. -/
  stream : List UInt8
  deriving DecidableEq, Repr, Inhabited

namespace Input

/-- A stream of which nothing is taken in yet. -/
def ofBytes (bytes : List UInt8) : Input :=
  ⟨[], [], bytes⟩

/-- How many bytes are taken in at once. -/
def blockSize : Nat := 8192

/-- The number of a line feed. -/
def lineFeed : UInt8 := 10

/-- The bytes up to and including the first line feed, and the rest, if there is a line feed. -/
def splitLine? (bytes : List UInt8) : Option (List UInt8 × List UInt8) :=
  match bytes.span fun b => b ≠ lineFeed with
  | (line, feed :: rest) => some (line ++ [feed], rest)
  | (_, []) => none

/-- Takes in a block for the reader of scripts. -/
def fillScript (input : Input) : Input :=
  if input.console.isEmpty then
    { input with
      script := input.script ++ input.stream.take blockSize
      stream := input.stream.drop blockSize }
  else { input with script := input.script ++ input.console, console := [] }

/-- Takes in a block for the reader of the console. -/
def fillConsole (input : Input) : Input :=
  { input with
    console := input.console ++ input.stream.take blockSize
    stream := input.stream.drop blockSize }

/-- Whether the stream and the console's block are used up. -/
def isDrained (input : Input) : Bool :=
  input.console.isEmpty && input.stream.isEmpty

/-- The next line for a script: up to and including a line feed, or all there is. -/
def readScriptLine : (blocks : Nat) → Input → List UInt8 × Input
  | 0, input => (input.script, { input with script := [] })
  | blocks + 1, input =>
    match splitLine? input.script with
    | some (line, rest) => (line, { input with script := rest })
    | none =>
      if input.isDrained then (input.script, { input with script := [] })
      else readScriptLine blocks input.fillScript

/-- The next line for the console: up to and including a line feed, or all there is. -/
def readConsoleLine : (blocks : Nat) → Input → List UInt8 × Input
  | 0, input => (input.console, { input with console := [] })
  | blocks + 1, input =>
    match splitLine? input.console with
    | some (line, rest) => (line, { input with console := rest })
    | none =>
      if input.stream.isEmpty then (input.console, { input with console := [] })
      else readConsoleLine blocks input.fillConsole

/-- How often a block can be taken in at most. -/
def blocks (input : Input) : Nat :=
  input.stream.length + 2

/-- The next line for a script. -/
def scriptLine (input : Input) : List UInt8 × Input :=
  readScriptLine input.blocks input

/-- The next line for the console. -/
def consoleLine (input : Input) : List UInt8 × Input :=
  readConsoleLine input.blocks input

/-- The text that bytes encode, if they are valid UTF-8. -/
def decode? (bytes : List UInt8) : Option String :=
  String.fromUTF8? ⟨bytes.toArray⟩

/-- What is wrong with bytes that are not. -/
def notUtf8 : String :=
  "stream did not contain valid UTF-8"

end Input

end Scriptlet
