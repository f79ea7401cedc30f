import Scriptlet.Location

/-!
# Calls

Everything a script does is a call of one of three kinds.
-/

namespace Scriptlet

/-- The kinds of calls. -/
inductive CallKind where
  /-- A statement run for its effects. -/
  | command
  /-- A statement that decides how often its body runs. -/
  | control
  /-- A call within a word, which yields a text. -/
  | expansion
  deriving DecidableEq, Repr, Inhabited

/-- The kind in the words of a message. -/
def CallKind.name : CallKind → String
  | command => "command"
  | control => "control"
  | expansion => "expansion"

/-- A call in progress: what was called, with which arguments, and where. -/
structure ActiveCall where
  name : String
  kind : CallKind
  args : List String
  location : Location
  deriving DecidableEq, Repr, Inhabited

/-- The call as a line of a backtrace. -/
def ActiveCall.describe (call : ActiveCall) : String :=
  let args := " ".intercalate call.args
  s!"{call.location.describe}: {call.kind.name} '{call.name}'" ++
    (if call.args.isEmpty then "" else s!" with ({args})")

end Scriptlet
