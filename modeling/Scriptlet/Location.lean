/-!
# Places in a script

A location is a line and a column, both counted from zero; columns count characters. A span runs
from the location of its first character to the location behind its last one.
-/

namespace Scriptlet

/-- A place in a script: zero-based line and column, the column in characters. -/
structure Location where
  line : Nat
  column : Nat
  deriving DecidableEq, Repr

namespace Location

/-- Where every script starts. -/
def origin : Location := ⟨0, 0⟩

instance : Inhabited Location := ⟨origin⟩

/-- The location behind one character: a line feed starts the next line. -/
def next (l : Location) (c : Char) : Location :=
  if c = '\n' then ⟨l.line + 1, 0⟩ else ⟨l.line, l.column + 1⟩

/-- The location behind a whole text. -/
def after (l : Location) (text : List Char) : Location :=
  text.foldl next l

/-- The location in words. -/
def describe (l : Location) : String :=
  s!"line {l.line}, column {l.column}"

/-- No text leaves the place where it is. -/
@[simp]
theorem after_nil (l : Location) : l.after [] = l := rfl

/-- A text is passed character by character. -/
@[simp]
theorem after_cons (l : Location) (c : Char) (cs : List Char) :
    l.after (c :: cs) = (l.next c).after cs := rfl

/-- Two texts are passed one after the other. -/
theorem after_append (l : Location) (s t : List Char) :
    l.after (s ++ t) = (l.after s).after t := List.foldl_append

end Location

/-- A stretch of a script, `stop` being the location behind its last character. -/
structure Span where
  start : Location
  stop : Location
  deriving DecidableEq, Repr

namespace Span

/-- The empty span at the start of the script. -/
def origin : Span := ⟨.origin, .origin⟩

instance : Inhabited Span := ⟨origin⟩

/-- The span in words. -/
def describe (s : Span) : String :=
  s!"{s.start.describe} till {s.stop.describe}"

end Span

end Scriptlet
