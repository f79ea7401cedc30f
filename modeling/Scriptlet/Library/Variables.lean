import Scriptlet.Handler

/-!
# Variables, results and the end of a run

The commands `set`, `unset`, `global`, `nonlocal`, `return` and `stop`.
-/

namespace Scriptlet.Library

variable {σ : Type}

/-- Gives the variable named by the first argument the other arguments, put together with spaces. -/
def set : Callback σ := fun call => do
  .ofExcept (call.requireMinArgs 1)
  .change (.set (call.args.head?.getD "") (Text.unwords call.args.tail))
  pure none

/-- Makes the change for each name in turn. -/
def forEach (change : String → Action σ Unit) : List String → Action σ Unit
  | [] => pure ()
  | name :: names => do
    change name
    forEach change names

/-- Takes variables away, each of which must have a value. -/
def unset : Callback σ := fun call => do
  .ofExcept (call.requireMinArgs 1)
  forEach .unset call.args
  pure none

/-- Forwards names of the current scope to the global one. -/
def global : Callback σ := fun call => do
  .ofExcept (call.requireMinArgs 1)
  forEach (fun name => .change (.declareGlobal name)) call.args
  pure none

/-- Forwards a name of the current scope to where the scopes around it find it. -/
def declareNonlocal (name : String) : Action σ Unit := do
  let context ← .context
  match context.scopes.enclosing? name with
  | some _ => .change (.declareNonlocal name)
  | none => .fail (.noEnclosingBinding name)

/-- Forwards names of the current scope to where the scopes around it find them. -/
def nonlocal : Callback σ := fun call => do
  .ofExcept (call.requireMinArgs 1)
  forEach declareNonlocal call.args
  pure none

/-- Leaves the innermost call of a definition with the arguments, put together with spaces, as its
result. -/
def leave : Callback σ := fun call => do
  let context ← .context
  match context.scopes.definitionAbove? with
  | some _ => .change (.leave (Text.unwords call.args))
  | none => .fail .returnOutsideDefinition
  pure none

/-- Ends the run. -/
def stop : Callback σ := fun _ => do
  .change .stop
  pure none

/-- The commands of this family. -/
def commands : Callbacks σ :=
  .ofList
    [("set", set), ("unset", unset), ("global", global), ("nonlocal", nonlocal),
      ("return", leave), ("stop", stop)]

end Scriptlet.Library
