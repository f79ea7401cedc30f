import Scriptlet.Proofs.Scope.Global

/-!
# Forwarded names in runs

A host that has a context at hand, and a run that starts on it, always find the names of a scope
forwarded to where they are kept (`State.Reachable.wellRedirected`).
-/

namespace Scriptlet

variable {σ : Type}

namespace ScopeStack.WellRedirected

variable {s t : ScopeStack}

/-- What stands in the frames beside their scopes does not matter for where names are forwarded. -/
lemma of_scopes (h : s.WellRedirected)
    (same : t.toList.map Frame.scope = s.toList.map Frame.scope) : t.WellRedirected where
  global := by
    rw [scopeAt_congr same]
    exact h.global
  outward number name target forwards := by
    simp only [redirectAt?, scopeAt_congr same] at forwards ⊢
    exact h.outward number name target forwards

/-- No handler can forward a name to where it is not kept. -/
lemma update {c : Context} (h : c.scopes.WellRedirected) (change : Update) :
    (c.update change).scopes.WellRedirected := by
  cases change with
  | set name value => exact h.set name value
  | unset name => exact h.unset name
  | declareGlobal name => exact h.declareGlobal name
  | declareNonlocal name => exact h.apply (.declareNonlocal name)
  | setChain isOpen =>
    have same := map_modifyParent (g := Frame.scope) (f := (·.setChain isOpen)) (fun _ => rfl) c.scopes
    exact h.of_scopes same
  | leave result =>
    rw [Context.update]
    cases handed : c.scopes.setResult? result with
    | none => exact h
    | some scopes =>
      obtain ⟨i, -, rfl⟩ := Option.map_eq_some_iff.1 handed
      have same := map_modifyAbove (g := Frame.scope) (f := fun f => { f with result := some result })
        (fun _ => rfl) c.scopes i
      exact h.of_scopes same
  | stop => exact h
  | define definition => exact h

/-- Whatever a run does to the context keeps redirects in order. -/
lemma passage {change : Context → Context} (passage : Evaluation.Passage change) {c : Context}
    (h : c.scopes.WellRedirected) : (change c).scopes.WellRedirected :=
  passage.induction (fun _ name value h => h.bindLocal name value) (fun _ h => h.of_scopes rfl) h

/-- Whatever a run does to the frames, names stay forwarded to where they are kept. -/
lemma bridging : Bridging fun s s' => s.WellRedirected → s'.WellRedirected where
  refl _ sound := sound
  trans first rest sound := rest (first sound)
  push _ call owns sound := sound.push call owns
  pop _ sound := sound.apply .pop
  countStatement _ sound := sound.of_scopes rfl
  update _ change sound := sound.update change
  passage passage _ sound := sound.passage passage

end ScopeStack.WellRedirected

/-- A host always finds the names of a scope forwarded to where they are kept. -/
lemma State.Reachable.wellRedirected {s : State σ} (h : s.Reachable) :
    s.context.scopes.WellRedirected :=
  h.of_bridging .initial ScopeStack.WellRedirected.bridging fun _ sound => sound.apply .unwind

end Scriptlet
