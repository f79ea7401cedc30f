import Scriptlet.Proofs.Checked.Frames
import Scriptlet.Proofs.Checked.Scanning
import Scriptlet.Proofs.Checked.Upheld
import Scriptlet.Proofs.Shape.Unreached

/-!
# Nothing fails that is checked

Reading tokens, looking up frames, calculating, and running scripts on the base library, each with a
check wherever a text is cut, a list is indexed or cut, or a step is taken on integers of 64 bits.
-/

namespace Scriptlet

/-- No check fails, and with checks everything comes to what it comes to without them: readings in a
row from the start of any text, faults included; steps in a row on the frames of any stack, and what
is looked up behind them, and any run does nothing to its frames but such steps; the operations on
numbers that take several steps; and runs of scripts and of statements from any state, with any
handlers, ceilings and observer beside the base library and whatever would be done where a check of
the evaluator or of the library failed. The excerpt of a failure is put together without any such
operation. -/
theorem no_check_fails :
    (∀ options source count, (Scanner.ofText source).pull? options count =
      some ((Lexer.ofText source).pull options count)) ∧
    (∀ (s : ScopeStack) (steps : List FrameStep),
      let s' := steps.foldl FrameStep.onStack s
      steps.foldlM FrameStep.onList? s.frames = some s'.frames ∧
        FrameList.depth? s'.frames = some s'.depth ∧
        FrameList.top? s'.frames = some s'.top ∧
        FrameList.parent? s'.frames = some s'.parent) ∧
    (∀ (σ : Type) (it : Interpreter σ) (fuel : Nat) (node : Node Token),
      Evaluation.Bridges ScopeStack.LeadsTo (it.runNode fuel node)) ∧
    (∀ a b : Number, a.neg? = some a.neg ∧ a.floorDiv? b = some (a.floorDiv b) ∧
      a.modulo? b = some (a.modulo b)) ∧
    ∀ (σ γ : Type) [RandomSource γ] (it : Interpreter σ) (random : Slot σ γ)
      (streams : Slot σ Streams) (failing : Failing σ) (stuck : Stuck σ) (fuel : Nat),
      let plain := (Library.addBase random it).addHandler .command "stdio" (Library.stdio streams)
      let checked := (Library.Checked.addBase failing random it).addHandler .command "stdio"
        (Library.Checked.stdio failing streams)
      (∀ script : Script, checked.runTree stuck fuel script.root.outline =
        plain.runNode fuel script.root) ∧
      ∀ statement : Statement Token, checked.runTree stuck fuel statement.outline =
        plain.runNode fuel (.statement statement) := by
  refine ⟨fun options source count => ?_, fun s steps => ?_, fun σ it fuel node => ?_,
    fun a b => ?_, ?_⟩
  · exact (Scanner.ofText_stands source).pull? options count
  · exact ⟨s.foldlM_onList?_frames steps, ScopeStack.depth?_frames _, ScopeStack.top?_frames _,
      ScopeStack.parent?_frames _⟩
  · exact (ScopeStack.LeadsTo.bridging.run_bridges it fuel).1 node
  · exact ⟨a.neg?_eq, a.floorDiv?_eq b, a.modulo?_eq b⟩
  · intro σ γ _ it random streams failing stuck fuel plain checked
    have same : checked = plain :=
      congrArg₂ (fun base handler => Interpreter.addHandler base .command "stdio" handler)
        (Library.Checked.addBase_eq failing random it) (Library.Checked.stdio_eq failing streams)
    have runs := (Interpreter.runTree_eq (.refl plain) stuck fuel).1
    rw [same]
    exact ⟨fun script => runs script.root rfl, fun statement => runs (.statement statement) rfl⟩

end Scriptlet
