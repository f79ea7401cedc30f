import Scriptlet.Console

/-!
# The program

Hands the arguments, the file they name and the standard input to the command line, and writes what
it reports.
-/

open Scriptlet

/-- The fault behind an error of the file system. -/
def fileFault : IO.Error → Console.FileFault
  | .noFileOrDirectory _ code reason | .inappropriateType _ code reason
  | .permissionDenied _ code reason | .invalidArgument _ code reason =>
    ⟨reason, code.toNat⟩
  | error => ⟨toString error, 1⟩

/-- What is in a file, or why it cannot be read. -/
def readScript (name : String) : IO (Except Console.FileFault (List UInt8)) := do
  try
    let bytes ← IO.FS.readBinFile name
    pure (.ok bytes.toList)
  catch error => pure (.error (fileFault error))

/-- Everything that a stream still holds. -/
partial def readAll (stream : IO.FS.Stream) (bytes : ByteArray) : IO ByteArray := do
  let block ← stream.read (USize.ofNat Input.blockSize)
  if block.isEmpty then pure bytes else readAll stream (bytes ++ block)

/-- The command line. -/
def main (args : List String) : IO UInt32 := do
  let contents ← match args with
    | [] => pure (.error .missing)
    | name :: _ => readScript name
  let input ← readAll (← IO.getStdin) ByteArray.empty
  let seed ← IO.rand 0 (Nat.pow 2 62)
  let report := Console.run args (fun _ => contents) input.toList seed
  IO.print report.output
  IO.eprint report.errors
  pure (.ofNat report.exitCode)
