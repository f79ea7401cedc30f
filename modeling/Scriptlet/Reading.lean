import Scriptlet.Fault

/-!
# Reading texts as truth values and numbers

Every value of a script is a text. Whether it is an integer, a binary64 number or no number is
decided where one is needed.
-/

namespace Scriptlet.Reading

/-- The text of a truth value. -/
def ofBool (b : Bool) : String :=
  if b then "1" else "0"

/-- The text of zero is false and every other text is true. -/
def isTrue (s : String) : Bool :=
  s ≠ "0"

/-- The number that a text stands for. -/
def number (s : String) : Except Fault Number :=
  match Number.read? s with
  | some n => .ok n
  | none => .error (.notNumber s)

/-- The integer that a text stands for. -/
def integer (s : String) : Except Fault Int64 := do
  match ← number s with
  | .int n => .ok n
  | .float _ => .error (.notInteger s)

/-- The numbers that texts stand for, all of them binary64 numbers if one of them is. -/
def numbers (texts : List String) : Except Fault (List Number) := do
  let numbers ← texts.mapM number
  pure (Number.promote numbers)

end Scriptlet.Reading
