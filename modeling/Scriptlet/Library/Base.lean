import Scriptlet.Interpreter.Basic
import Scriptlet.Library.Control
import Scriptlet.Library.Random
import Scriptlet.Library.Variables
import Scriptlet.Library.Vectors

/-!
# The base library

Everything a script can do without a host of its own, printing and reading lines apart.
-/

namespace Scriptlet.Library

variable {σ γ : Type} [RandomSource γ]

/-- Binds the truth values. -/
def bindTruth (c : Context) : Except RuntimeError Context :=
  .ok ((c.update (.set "true" (Reading.ofBool true))).update (.set "false" (Reading.ofBool false)))

/-- Adds the base library to an interpreter. -/
def addBase (random : Slot σ γ) (it : Interpreter σ) : Interpreter σ :=
  (it.addInitializer bindTruth)
    |>.addHandler .command "builtin" commands.toHandler
    |>.addHandler .control "builtin" controls.toHandler
    |>.addHandler .expansion "arithmetic" arithmetic.toHandler
    |>.addHandler .expansion "comparison" comparison.toHandler
    |>.addHandler .expansion "logic" logic.toHandler
    |>.addHandler .expansion "string" vectors.toHandler
    |>.addHandler .expansion "random" (Library.random random)

end Scriptlet.Library
