import Mathlib.Data.List.Forall2
import Mathlib.Tactic.Lemma
import Scriptlet.Interpreter.Basic

/-!
# Interpreters that serve scripts alike

A script calls a control with a body, and any other call without one. Interpreters whose handlers
differ only for calls that no script makes agree.
-/

namespace Scriptlet

/-- Both handlers answer to the same names, and do the same for calls of the kind as they stand in
scripts: a control call has a body. -/
structure Handler.Agrees {σ : Type} (kind : CallKind) (handler handler' : Handler σ) : Prop where
  answersTo : handler.answersTo = handler'.answersTo
  invoke : ∀ call : Call, call.active.kind = kind → (kind = .control → call.body.isSome) →
    handler.invoke call = handler'.invoke call

/-- A handler agrees with itself. -/
lemma Handler.Agrees.refl {σ : Type} (kind : CallKind) (handler : Handler σ) :
    handler.Agrees kind handler :=
  ⟨rfl, fun _ _ _ => rfl⟩

/-- Both chains have the same names in the same order, for handlers that agree. -/
def Chain.Agrees {σ : Type} (kind : CallKind) (chain chain' : Chain σ) : Prop :=
  List.Forall₂ (fun entry entry' => entry.1 = entry'.1 ∧ entry.2.Agrees kind entry'.2) chain.entries
    chain'.entries

namespace Chain.Agrees

variable {σ : Type} {kind : CallKind} {chain chain' : Chain σ}

/-- A chain agrees with itself. -/
lemma refl (kind : CallKind) (chain : Chain σ) : chain.Agrees kind chain :=
  List.forall₂_same.2 fun _ _ => ⟨rfl, .refl kind _⟩

/-- Chains that agree have handlers that agree for every name, or none. -/
lemma handlerFor? (agrees : chain.Agrees kind chain') (name : String) :
    Option.Rel (Handler.Agrees kind) (chain.handlerFor? name) (chain'.handlerFor? name) := by
  obtain ⟨entries⟩ := chain
  obtain ⟨entries'⟩ := chain'
  change List.Forall₂ _ entries entries' at agrees
  show Option.Rel _ (firstFor name entries) (firstFor name entries')
  induction agrees with
  | nil => exact .none
  | cons first _ ih =>
    rw [firstFor, firstFor, ← first.2.answersTo]
    split
    · exact .some first.2
    · exact ih

/-- Chains still agree when handlers that agree get the same name. -/
lemma insert (agrees : chain.Agrees kind chain') (name : String) {handler handler' : Handler σ}
    (serves : handler.Agrees kind handler') :
    Chain.Agrees kind (chain.insert name handler) (chain'.insert name handler') := by
  obtain ⟨entries⟩ := chain
  obtain ⟨entries'⟩ := chain'
  change List.Forall₂ _ entries entries' at agrees
  show List.Forall₂ _ (Table.put name handler entries) (Table.put name handler' entries')
  induction agrees with
  | nil => exact .cons ⟨rfl, serves⟩ .nil
  | cons first rest ih =>
    rw [Table.put, Table.put, ← first.1]
    split
    · exact .cons ⟨rfl, serves⟩ rest
    · exact .cons ⟨rfl, first.2⟩ ih

end Chain.Agrees

/-- The interpreters have the same ceilings and observer, and serve calls as they stand in scripts
alike. -/
structure Interpreter.Agrees {σ : Type} (it it' : Interpreter σ) : Prop where
  limits : it.limits = it'.limits
  observe : it.observe = it'.observe
  chains : ∀ kind, (it.registry.chain kind).Agrees kind (it'.registry.chain kind)

namespace Interpreter.Agrees

variable {σ : Type} {it it' : Interpreter σ}

/-- An interpreter agrees with itself. -/
lemma refl (it : Interpreter σ) : it.Agrees it :=
  ⟨rfl, rfl, fun kind => .refl kind _⟩

/-- Interpreters still agree when handlers that agree are added to both. -/
lemma addHandler (agrees : it.Agrees it') (kind : CallKind) (name : String)
    {handler handler' : Handler σ} (serves : handler.Agrees kind handler') :
    (it.addHandler kind name handler).Agrees (it'.addHandler kind name handler') where
  limits := agrees.limits
  observe := agrees.observe
  chains other := by
    have same := agrees.chains other
    cases kind <;> cases other
    case command.command | control.control | expansion.expansion => exact same.insert name serves
    all_goals exact same

end Interpreter.Agrees

end Scriptlet
