import Scriptlet.Location

/-!
# Excerpts

The report of a failure shows the lines of the script up to the offending one, each with its
number, then a caret beneath the offending column, then the message.
-/

namespace Scriptlet.Excerpt

/-- How many lines are shown above the offending one. -/
def linesAbove : Nat := 3

/-- A line without the carriage return it may end with. -/
def dropReturn (line : List Char) : List Char :=
  if line.getLast? = some '\r' then line.dropLast else line

/-- The lines of a text. A line feed, or a carriage return and a line feed, ends a line; what
follows the last line end is a line only if it is not empty. -/
def lines (text : List Char) : List (List Char) :=
  match (text.splitOn '\n').reverse with
  | [] => []
  | last :: init =>
    (init.map dropReturn).reverse ++ (if last.isEmpty then [] else [last])

/-- The number in decimal, with zeros in front up to the given width. -/
def padded (width n : Nat) : String :=
  let digits := toString n
  String.ofList (List.replicate (width - digits.length) '0') ++ digits

/-- The line numbers of an excerpt are as wide as the number of lines. -/
def numberWidth (lineCount : Nat) : Nat :=
  (toString (max lineCount 1)).length

/-- The excerpt of `source` that shows `location`, with `message` beneath it. -/
def render (source : String) (location : Location) (message : String) : String :=
  let all := lines source.toList
  let width := numberWidth all.length
  let first := location.line - linesAbove
  let ellipsis := if first = 0 then [] else ["..."]
  let shown := ((all.take (location.line + 1)).drop first).zipIdx first
  let numbered := shown.map fun (line, n) => s!"{padded width n} {String.ofList line}"
  let caret := String.ofList (List.replicate (location.column + 1 + width) ' ') ++ "^"
  "\n".intercalate (ellipsis ++ numbered ++ [caret, s!"line {location.line}: {message}"])

end Scriptlet.Excerpt
