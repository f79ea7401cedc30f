import Scriptlet.Text.Unprintable
import Scriptlet.Text.Combining

/-!
# Quoted texts

The form in which messages and tree renderings show a text: between double quotes, with everything
that would not be seen, or would end the quotes, written as an escape. No two texts have the same
quoted form.
-/

namespace Scriptlet.Text

/-- The digits of a number in lower-case hexadecimal. -/
def hexDigits (n : Nat) : List Char :=
  Nat.toDigits 16 n

/-- The escape that names a character by its code point. -/
def codeEscape (c : Char) : List Char :=
  ['\\', 'u', '\x7b'] ++ hexDigits c.toNat ++ ['\x7d']

/-- One character between double quotes: the usual short escapes, the code point for what is
unprintable or drawn on another character, and everything else as it is. -/
def escape (c : Char) : List Char :=
  if c = '"' then ['\\', '"']
  else if c = '\\' then ['\\', '\\']
  else if c = '\n' then ['\\', 'n']
  else if c = '\r' then ['\\', 'r']
  else if c = '\t' then ['\\', 't']
  else if c = '\x00' then ['\\', '0']
  else if isUnprintable c || (isCombining c && !isSoundMark c) then codeEscape c
  else [c]

/-- The text between double quotes. -/
def quoted (s : String) : String :=
  .ofList ('"' :: s.toList.flatMap escape ++ ['"'])

/-- The character between single quotes. There a double quote stands for itself and a single
quote is escaped. -/
def quotedChar (c : Char) : String :=
  let body := if c = '"' then ['"'] else if c = '\'' then ['\\', '\''] else escape c
  .ofList ('\'' :: body ++ ['\''])

end Scriptlet.Text
