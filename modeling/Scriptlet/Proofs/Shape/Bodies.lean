import Scriptlet.Console
import Scriptlet.Proofs.Shape.Documented
import Scriptlet.Proofs.Shape.Unreached

/-!
# Calls with and without bodies

The handler of `def` asks whether its call has a body, which every control call of a script has. So
runs do not depend on what it would do without one, as they do not depend on what the interpreter
would do with trees that no script has (`Interpreter.never_stuck`).
-/

namespace Scriptlet

namespace Library

variable {σ : Type}

/-- `define` with another outcome where the call has no body. -/
def defineOr (missing : Action σ (Option String)) : Callback σ := fun call => do
  .ofExcept (call.requireMinArgs 1)
  match call.body with
  | none => missing
  | some body =>
    let definition ←
      .ofExcept (definitionOf (call.args.head?.getD "") call.args.tail body)
    .change (.define definition)
    pure none

/-- A definition that has a body comes to what it comes to with the fault for one without. -/
lemma defineOr_eq (missing : Action σ (Option String)) {call : Call} (body : call.body.isSome) :
    define call = defineOr missing call := by
  obtain ⟨body, here⟩ := Option.isSome_iff_exists.1 body
  rw [define, defineOr, here]

/-- The control calls with another outcome where a definition has no body. -/
def controlsOr (missing : Action σ (Option String)) : Callbacks σ :=
  controls.addCall "def" (defineOr missing)

/-- Of the control calls, only `def` does something else without a body. -/
lemma controlsOr_find? (missing : Action σ (Option String)) (name : String) :
    (controlsOr missing).find? name =
      if name = "def" then some (defineOr missing) else controls.find? name :=
  Table.get?_insert _ _ _ _

/-- A control call as it stands in a script has a body, so what happens without one does not matter.
-/
lemma controlsOr_agrees (missing : Action σ (Option String)) :
    (controls (σ := σ)).toHandler.Agrees .control (controlsOr missing).toHandler where
  answersTo := by
    funext name
    show (controls.find? name).isSome = ((controlsOr missing).find? name).isSome
    rw [controlsOr_find?]
    split
    · subst name
      rfl
    · rfl
  invoke call _ body := by
    simp only [Callbacks.toHandler]
    rw [controlsOr_find?]
    by_cases named : call.name = "def"
    · rw [if_pos named, named, show controls.find? "def" = some define from rfl]
      exact defineOr_eq missing (body rfl)
    · rw [if_neg named]

end Library

/-- Every tree that is read has the documented shapes, and so no run ever gets where they do not
lead: on the outline of a script an interpreter of outlines runs as the interpreter of scripts does,
whatever it would do if it were stuck and whatever a definition without a body would come to. -/
theorem Interpreter.never_stuck :
    (∀ options limit source script, Script.parse options limit source = .ok script →
      script.root.outline.kind = .script ∧ script.root.outline.Documented) ∧
    (∀ options limit source statement,
      Script.parseStatement options limit source = .ok (some statement) →
        statement.outline.kind.isStatement ∧ statement.outline.Documented) ∧
    ∀ (σ : Type) (it : Interpreter σ) (name : String) (stuck : Stuck σ)
      (missing : Action σ (Option String)) (fuel : Nat) (node : Node Token), Node.runs node →
        (it.addHandler .control name (Library.controlsOr missing).toHandler).runTree stuck fuel
            node.outline =
          (it.addHandler .control name Library.controls.toHandler).runNode fuel node := by
  refine ⟨fun _ _ _ _ read => ⟨rfl, Script.parse_documented read⟩,
    fun _ _ _ s read => ⟨s.outline_statement, Script.parseStatement_documented read⟩, ?_⟩
  intro σ it name stuck missing fuel node runnable
  have agrees := (Agrees.refl it).addHandler .control name (Library.controlsOr_agrees missing)
  exact (runTree_eq agrees stuck fuel).1 node runnable

/-- The tree of a definition and a call of it, and a run of both, whatever would be done elsewhere. -/
theorem Interpreter.definition_fits :
    (∃ script,
      Script.parse {} 0 "!def (f a) \x7b return $a \x7d; set x $(f \"b\")c" = .ok script ∧
      script.root.outline.Documented ∧
      ∀ (stuck : Stuck Console.Host) (missing : Action Console.Host (Option String)),
        ∃ s', (Console.interpreter.addHandler .control "builtin"
            (Library.controlsOr missing).toHandler).runTree stuck 5 script.root.outline
              ⟨.initial, Console.start [] 0⟩ = some (.ok (), s') ∧
          s'.context.get? "x" = some "bc") ∧
    ∃ statement, Script.parseStatement {} 0 "print $^x" = .ok (some statement) ∧
      statement.outline.Documented := by
  obtain ⟨script, read⟩ : ∃ script,
      Script.parse {} 0 "!def (f a) \x7b return $a \x7d; set x $(f \"b\")c" = .ok script :=
    ⟨_, rfl⟩
  obtain ⟨statement, single⟩ :
      ∃ statement, Script.parseStatement {} 0 "print $^x" = .ok (some statement) := ⟨_, rfl⟩
  refine ⟨⟨script, read, (never_stuck.1 _ _ _ _ read).2, fun stuck missing => ?_⟩,
    statement, single, (never_stuck.2.1 _ _ _ _ single).2⟩
  rw [never_stuck.2.2 _ _ _ stuck missing _ script.root rfl]
  -- what is left is one run, which can be carried out
  let plain := Console.interpreter.addHandler .control "builtin" Library.controls.toHandler
  have outcome : (Script.parse {} 0 "!def (f a) \x7b return $a \x7d; set x $(f \"b\")c").toOption.bind
      (fun script => (plain.runNode 5 script.root ⟨.initial, Console.start [] 0⟩).map fun ended =>
        (ended.1.toOption, ended.2.context.get? "x")) = some (some (), some "bc") := by
    decide +kernel
  rw [read] at outcome
  obtain ⟨⟨result, s'⟩, ran, seen⟩ := Option.map_eq_some_iff.1 outcome
  obtain ⟨ok, value⟩ := Prod.mk.inj seen
  cases result with
  | error error => cases ok
  | ok _ => exact ⟨s', ran, value⟩

end Scriptlet
