import Scriptlet.Proofs.Scope.Stack

/-!
# Where names are forwarded to

A scope that forwards a name holds the number of another frame, while frames come and go. The
invariant `WellRedirected` says that these numbers never dangle: a name is forwarded to an outer
frame which owns a scope and keeps the name to itself. Every operation preserves it, so that giving
a variable a value is never without effect.
-/

namespace Scriptlet

namespace ScopeStack

/-- The value that the scope of a frame gives a name by itself. -/
def bindingAt? (s : ScopeStack) (number : Nat) (name : String) : Option String :=
  (s.scopeAt number).bind fun scope => scope.bindings.get? name

/-- The frame to which the scope of a frame forwards a name. -/
def redirectAt? (s : ScopeStack) (number : Nat) (name : String) : Option Nat :=
  (s.scopeAt number).bind fun scope => scope.redirects.get? name

/-- The global frame owns a scope that forwards nothing, and every name that another scope forwards
goes to an outer frame that owns a scope and does not forward the name itself. -/
structure WellRedirected (s : ScopeStack) : Prop where
  global : (s.scopeAt 0).map Scope.redirects = some .empty
  outward : ∀ number name target, s.redirectAt? number name = some target →
    target < number ∧ (s.scopeAt target).isSome ∧ s.redirectAt? target name = none

/-- What can happen to a stack of frames. -/
inductive Operation where
  | push (call : ActiveCall) (ownsScope : Bool)
  | pop
  | unwind
  | set (name value : String)
  | unset (name : String)
  | bindLocal (name value : String)
  | declareGlobal (name : String)
  | declareNonlocal (name : String)

/-- The stack after an operation. A nonlocal name that nothing binds changes nothing. -/
def Operation.apply (s : ScopeStack) : Operation → ScopeStack
  | push call ownsScope => s.push (.ofCall call ownsScope)
  | pop => s.pop
  | unwind => s.unwind
  | set name value => s.set name value
  | unset name => s.unset name
  | bindLocal name value => s.bindLocal name value
  | declareGlobal name => s.declareGlobal name
  | declareNonlocal name => (s.declareNonlocal? name).getD s

/-- The stack after operations in order, from nothing but the global frame. -/
def Operation.run (operations : List Operation) : ScopeStack :=
  operations.foldl Operation.apply initial

/-- A scope that gives a name a value is there. -/
lemma isSome_scopeAt_of_redirectAt? {s : ScopeStack} {number : Nat} {name : String} {target : Nat}
    (h : s.redirectAt? number name = some target) : (s.scopeAt number).isSome := by
  obtain ⟨scope, hscope, -⟩ := Option.bind_eq_some_iff.1 h
  rw [hscope]
  rfl

namespace WellRedirected

variable {s s' : ScopeStack}

/-- The global frame owns a scope. -/
lemma isSome_scopeAt_zero (h : s.WellRedirected) : (s.scopeAt 0).isSome := by
  obtain ⟨scope, hscope, -⟩ := Option.map_eq_some_iff.1 h.global
  rw [hscope]
  rfl

/-- The global frame forwards nothing. -/
lemma redirectAt?_zero (h : s.WellRedirected) (name : String) : s.redirectAt? 0 name = none := by
  obtain ⟨scope, hscope, hempty⟩ := Option.map_eq_some_iff.1 h.global
  rw [redirectAt?, hscope, Option.bind_some, hempty]
  rfl

/-- Where a name lives, there is a scope. -/
lemma isSome_scopeAt_resolve (h : s.WellRedirected) (name : String) :
    (s.scopeAt (s.resolve name)).isSome := by
  have current := isSome_scopeAt_current h.isSome_scopeAt_zero
  show (s.scopeAt ((s.redirectAt? s.current name).getD s.current)).isSome
  cases e : s.redirectAt? s.current name with
  | none => exact current
  | some target => exact (h.outward _ _ _ e).2.1

/-- Redirects are in order at the start. -/
lemma initial : ScopeStack.initial.WellRedirected where
  global := rfl
  outward := by
    intro number name target e
    cases number with
    | zero => cases e
    | succ number =>
      have none : ScopeStack.initial.scopeAt (number + 1) = none :=
        scopeAt_of_depth_lt _ (Nat.succ_pos number)
      rw [redirectAt?, none] at e
      cases e

/-- A frame that begins forwards nothing. -/
lemma push (h : s.WellRedirected) (call : ActiveCall) (owns : Bool) :
    (s.push (.ofCall call owns)).WellRedirected := by
  have fresh : ∀ name, (Frame.ofCall call owns).scope.bind
      (fun scope => scope.redirects.get? name) = none := by
    intro name
    cases owns <;> rfl
  have redirects : ∀ number name, (s.push (.ofCall call owns)).redirectAt? number name =
      s.redirectAt? number name := by
    intro number name
    rw [redirectAt?, scopeAt_push]
    split
    · rename_i e
      rw [fresh, redirectAt?, e, scopeAt_of_depth_lt s (Nat.lt_succ_self _)]
      rfl
    · rfl
  refine ⟨?_, ?_⟩
  · rw [scopeAt_push, if_neg (Nat.succ_ne_zero _).symm]
    exact h.global
  · intro number name target e
    rw [redirects] at e
    obtain ⟨lt, owner, last⟩ := h.outward number name target e
    refine ⟨lt, ?_, by rwa [redirects]⟩
    have below : target ≤ s.depth := by
      rcases Nat.lt_or_ge s.depth target with above | below
      · rw [scopeAt_of_depth_lt s above] at owner
        cases owner
      · exact below
    rwa [scopeAt_push, if_neg (by omega)]

/-- Frames only ever depend on frames below them, so they can be taken away from the top. -/
lemma truncate (h : s.WellRedirected) {last : Nat}
    (scopes : ∀ number, s'.scopeAt number = if number ≤ last then s.scopeAt number else none) :
    s'.WellRedirected := by
  have redirects : ∀ number name, s'.redirectAt? number name =
      if number ≤ last then s.redirectAt? number name else none := by
    intro number name
    rw [redirectAt?, scopes]
    split <;> rfl
  refine ⟨?_, ?_⟩
  · rw [scopes, if_pos (Nat.zero_le _)]
    exact h.global
  · intro number name target e
    rw [redirects] at e
    split at e
    · obtain ⟨lt, owner, final⟩ := h.outward number name target e
      refine ⟨lt, ?_, ?_⟩
      · rwa [scopes, if_pos (by omega)]
      · rwa [redirects, if_pos (by omega)]
    · cases e

/-- A scope can be changed as long as it forwards what it did before. -/
lemma modifyBindings (h : s.WellRedirected) (number : Nat) {f : Scope → Scope}
    (same : ∀ scope, (f scope).redirects = scope.redirects) :
    (s.modifyScope number f).WellRedirected := by
  have owner : ∀ i, ((s.modifyScope number f).scopeAt i).isSome = (s.scopeAt i).isSome := by
    intro i
    rw [scopeAt_modifyScope]
    split <;> simp
  have redirects : ∀ i name,
      (s.modifyScope number f).redirectAt? i name = s.redirectAt? i name := by
    intro i name
    rw [redirectAt?, redirectAt?, scopeAt_modifyScope]
    split
    · cases s.scopeAt i <;> simp [same]
    · rfl
  refine ⟨?_, ?_⟩
  · rw [scopeAt_modifyScope]
    split
    · rw [Option.map_map]
      simpa [Function.comp_def, same] using h.global
    · exact h.global
  · intro i name target e
    rw [redirects] at e
    rw [owner, redirects]
    exact h.outward i name target e

/-- The innermost scope can forward names to outer scopes that keep them: no scope forwards anything
to it. -/
lemma modifyCurrent (h : s.WellRedirected) {f : Scope → Scope}
    (global : s.current = 0 → ∀ scope, scope.redirects = .empty → (f scope).redirects = .empty)
    (outward : ∀ scope name target, (f scope).redirects.get? name = some target →
      scope.redirects.get? name = some target ∨
        target < s.current ∧ (s.scopeAt target).isSome ∧ s.redirectAt? target name = none) :
    (s.modifyScope s.current f).WellRedirected := by
  have scopes := scopeAt_modifyScope s s.current f
  refine ⟨?_, ?_⟩
  · rw [scopes]
    split
    · rename_i e
      obtain ⟨scope, hscope, hempty⟩ := Option.map_eq_some_iff.1 h.global
      rw [hscope, Option.map_some, Option.map_some, global e.symm scope hempty]
    · exact h.global
  · intro number name target e
    -- a scope below the current one has not changed, and so has what it forwards to
    have settled : ∀ {number target : Nat}, target < number → number ≤ s.current →
        (s.scopeAt target).isSome → s.redirectAt? target name = none →
        target < number ∧ ((s.modifyScope s.current f).scopeAt target).isSome ∧
          (s.modifyScope s.current f).redirectAt? target name = none := by
      intro number target lt le owner last
      have same := scopes target
      rw [if_neg (by omega)] at same
      rw [redirectAt?, same]
      exact ⟨lt, owner, last⟩
    have owner := isSome_scopeAt_of_redirectAt? e
    rw [redirectAt?, scopes] at e
    rw [scopes] at owner
    split at e
    · rename_i top
      obtain ⟨scope, hscope, hredirect⟩ := Option.bind_eq_some_iff.1 e
      obtain ⟨old, hold, rfl⟩ := Option.map_eq_some_iff.1 hscope
      rcases outward old name target hredirect with kept | ⟨lt, isOwner, last⟩
      · have before : s.redirectAt? number name = some target := by
          rw [redirectAt?, hold]
          exact kept
        obtain ⟨lt, isOwner, last⟩ := h.outward number name target before
        exact settled lt (Nat.le_of_eq top) isOwner last
      · exact settled (top ▸ lt) (Nat.le_of_eq top) isOwner last
    · rename_i other
      rw [if_neg other] at owner
      have le : number ≤ s.current := by
        rcases Nat.lt_or_ge s.current number with above | le
        · rw [scopeAt_of_current_lt above] at owner
          cases owner
        · exact le
      obtain ⟨lt, isOwner, last⟩ := h.outward number name target e
      exact settled lt le isOwner last

end WellRedirected

/-- What a search outward finds, some frame finds by itself. -/
lemma exists_finds?_of_findOutward {name : String} {target : Nat} {frames : List Frame}
    (h : findOutward name frames = some target) :
    ∃ number frame, number < frames.length ∧ frames[frames.length - 1 - number]? = some frame ∧
      frame.finds? number name = some target := by
  induction frames with
  | nil => cases h
  | cons f outer ih =>
    rw [findOutward] at h
    cases e : f.finds? outer.length name with
    | some found =>
      rw [e, Option.some_or] at h
      cases h
      exact ⟨outer.length, f, Nat.lt_succ_self _, by simp, e⟩
    | none =>
      rw [e, Option.none_or] at h
      obtain ⟨number, frame, lt, hframe, hfinds⟩ := ih h
      refine ⟨number, frame, Nat.lt_succ_of_lt lt, ?_, hfinds⟩
      have e : (f :: outer).length - 1 - number = (outer.length - 1 - number) + 1 := by
        rw [List.length_cons]
        omega
      rw [e, List.getElem?_cons_succ]
      exact hframe

/-- A name is found by a scope around the current one, where that forwards it or in that scope. -/
lemma exists_of_enclosing? {s : ScopeStack} {name : String} {target : Nat}
    (h : s.enclosing? name = some target) :
    ∃ number < s.current, s.redirectAt? number name = some target ∨
      (s.scopeAt number).isSome ∧ s.redirectAt? number name = none ∧ target = number := by
  obtain ⟨number, frame, lt, hframe, hfinds⟩ := exists_finds?_of_findOutward h
  have le := s.current_le_depth
  rw [List.length_drop, length_toList] at lt hframe
  rw [List.getElem?_drop] at hframe
  have position : s.depth - s.current + 1 +
      (s.depth + 1 - (s.depth - s.current + 1) - 1 - number) = s.depth - number := by
    omega
  rw [position] at hframe
  have below : number < s.current := by omega
  have scope : s.scopeAt number = frame.scope := by
    rw [scopeAt_eq s (by omega), hframe, Option.bind_some]
  refine ⟨number, below, ?_⟩
  obtain ⟨own, hown, hor⟩ := Option.bind_eq_some_iff.1 hfinds
  rw [redirectAt?, scope, hown, Option.bind_some]
  cases e : own.redirects.get? name with
  | some redirect =>
    rw [e, Option.some_or] at hor
    exact .inl hor
  | none =>
    rw [e, Option.none_or] at hor
    split at hor
    · exact .inr ⟨rfl, rfl, (Option.some.inj hor).symm⟩
    · cases hor

namespace WellRedirected

variable {s : ScopeStack}

/-- Setting a name keeps redirects in order. -/
lemma set (h : s.WellRedirected) (name value : String) : (s.set name value).WellRedirected :=
  h.modifyBindings _ fun _ => rfl

/-- So does removing one. -/
lemma unset (h : s.WellRedirected) (name : String) : (s.unset name).WellRedirected :=
  h.modifyBindings _ fun _ => rfl

/-- So does binding a name in the current scope, which takes back its redirect. -/
lemma bindLocal (h : s.WellRedirected) (name value : String) :
    (s.bindLocal name value).WellRedirected := by
  apply h.modifyCurrent
  · intro _ scope hempty
    show scope.redirects.erase name = .empty
    rw [hempty]
    rfl
  · intro scope other target e
    refine .inl ?_
    change (scope.redirects.erase name).get? other = some target at e
    rw [Table.get?_erase] at e
    split at e
    · cases e
    · exact e

/-- A name can be forwarded to an outer scope that keeps it. -/
lemma redirect (h : s.WellRedirected) {name : String} {target : Nat} (lt : target < s.current)
    (owner : (s.scopeAt target).isSome) (last : s.redirectAt? target name = none) :
    (s.redirect name target).WellRedirected := by
  apply h.modifyCurrent
  · intro e
    omega
  · intro scope other found e
    change (scope.redirects.insert name target).get? other = some found at e
    rw [Table.get?_insert] at e
    split at e
    · rename_i same
      cases e
      exact .inr ⟨lt, owner, same ▸ last⟩
    · exact .inl e

/-- The global scope keeps every name. -/
lemma declareGlobal (h : s.WellRedirected) (name : String) :
    (s.declareGlobal name).WellRedirected := by
  unfold ScopeStack.declareGlobal
  split
  · exact h
  · exact h.redirect (by omega) h.isSome_scopeAt_zero (h.redirectAt?_zero name)

/-- Where a scope around the current one finds a name, the name is kept. -/
lemma declareNonlocal (h : s.WellRedirected) {name : String} {s' : ScopeStack}
    (e : s.declareNonlocal? name = some s') : s'.WellRedirected := by
  obtain ⟨target, found, rfl⟩ := Option.map_eq_some_iff.1 e
  obtain ⟨number, lt, forwarded | ⟨owner, last, rfl⟩⟩ := exists_of_enclosing? found
  · -- a scope that forwards the name is skipped, so that no redirect leads to another one
    obtain ⟨outward, owner, last⟩ := h.outward number name target forwarded
    exact h.redirect (Nat.lt_trans outward lt) owner last
  · exact h.redirect lt owner last

/-- Every operation keeps what names are forwarded to. -/
lemma apply (h : s.WellRedirected) (operation : Operation) : (operation.apply s).WellRedirected := by
  cases operation with
  | push call owns => exact h.push call owns
  | pop => exact h.truncate s.scopeAt_pop
  | unwind => exact h.truncate s.scopeAt_unwind
  | set name value => exact h.set name value
  | unset name => exact h.unset name
  | bindLocal name value => exact h.bindLocal name value
  | declareGlobal name => exact h.declareGlobal name
  | declareNonlocal name =>
    show ((s.declareNonlocal? name).getD s).WellRedirected
    cases e : s.declareNonlocal? name with
    | none => exact h
    | some s' => exact h.declareNonlocal e

/-- Operations in order keep what names are forwarded to. -/
lemma foldl_apply (h : s.WellRedirected) (operations : List Operation) :
    (operations.foldl Operation.apply s).WellRedirected := by
  induction operations generalizing s with
  | nil => exact h
  | cons operation rest ih => exact ih (h.apply operation)

/-- After any operations, names are forwarded to where they are kept. -/
lemma run (operations : List Operation) : (Operation.run operations).WellRedirected :=
  WellRedirected.initial.foldl_apply operations

end WellRedirected

/-- A change of bindings alone leaves every name where it lives. -/
lemma resolve_modifyScope (s : ScopeStack) (number : Nat) {f : Scope → Scope}
    (same : ∀ scope, (f scope).redirects = scope.redirects) (name : String) :
    (s.modifyScope number f).resolve name = s.resolve name := by
  rw [resolve, resolve, current_modifyScope, scopeAt_modifyScope]
  split
  · cases s.scopeAt s.current <;> simp [same]
  · rfl

/-- Setting a name does not change where names lead. -/
lemma resolve_set (s : ScopeStack) (name value other : String) :
    (s.set name value).resolve other = s.resolve other := by
  rw [set]
  apply resolve_modifyScope
  exact fun _ => rfl

/-- Nor does removing one. -/
lemma resolve_unset (s : ScopeStack) (name other : String) :
    (s.unset name).resolve other = s.resolve other := by
  rw [unset]
  apply resolve_modifyScope
  exact fun _ => rfl

/-- A variable that was given a value has it, if there is a scope where it lives. -/
lemma get?_set {s : ScopeStack} {name : String} (home : (s.scopeAt (s.resolve name)).isSome)
    (value : String) : (s.set name value).get? name = some value := by
  obtain ⟨scope, hscope⟩ := Option.isSome_iff_exists.1 home
  rw [get?, resolve_set, set, scopeAt_modifyScope, if_pos rfl, hscope]
  simp [Table.get?_insert]

/-- A call without a scope gives a variable the value where the one around it would. -/
lemma set_push {s : ScopeStack} {name : String} (home : (s.scopeAt (s.resolve name)).isSome)
    (value : String) (call : ActiveCall) :
    (s.push (.ofCall call false)).set name value = (s.set name value).push (.ofCall call false) := by
  have same : (s.push (.ofCall call false)).resolve name = s.resolve name := by
    have above : s.current ≠ s.depth + 1 := Nat.ne_of_lt (Nat.lt_succ_of_le s.current_le_depth)
    rw [resolve, current_push, if_neg Bool.false_ne_true, scopeAt_push, if_neg above]
    rfl
  have le : s.resolve name ≤ s.depth := by
    apply Nat.le_of_not_lt
    intro above
    rw [scopeAt_of_depth_lt s above] at home
    cases home
  rw [set, same, set, modifyScope, modifyScope, if_pos le, depth_push, if_pos (Nat.le_succ_of_le le),
    Nat.succ_sub le, modifyAbove, push, push, toList_modifyAbove]

/-- A name that was removed has no value. -/
lemma get?_unset (s : ScopeStack) (name : String) : (s.unset name).get? name = none := by
  rw [get?, resolve_unset, unset, scopeAt_modifyScope, if_pos rfl]
  cases s.scopeAt (s.resolve name) <;> simp [Table.get?_erase]

/-- Giving a variable a value changes no binding but its own. -/
lemma bindingAt?_set (s : ScopeStack) (name value : String) {number : Nat} {other : String}
    (ne : (number, other) ≠ (s.resolve name, name)) :
    (s.set name value).bindingAt? number other = s.bindingAt? number other := by
  rw [bindingAt?, bindingAt?, set, scopeAt_modifyScope]
  split
  · rename_i e
    have differ : other ≠ name := fun e' => ne (by rw [e, e'])
    cases s.scopeAt number <;> simp [Table.get?_insert, differ]
  · rfl

/-- Removing a name takes one binding only, the one that the name leads to. -/
lemma bindingAt?_unset (s : ScopeStack) (name : String) {number : Nat} {other : String}
    (ne : (number, other) ≠ (s.resolve name, name)) :
    (s.unset name).bindingAt? number other = s.bindingAt? number other := by
  rw [bindingAt?, bindingAt?, unset, scopeAt_modifyScope]
  split
  · rename_i e
    have differ : other ≠ name := fun e' => ne (by rw [e, e'])
    cases s.scopeAt number <;> simp [Table.get?_erase, differ]
  · rfl

/-- After any operations, every forwarded name leads to an outer scope that keeps it. Therefore a
variable that is given a value has it, one that is taken away has none, and both touch one binding
of that name at most and none of another name. -/
theorem redirects_never_dangle (operations : List Operation) :
    let s := Operation.run operations
    s.frames ≠ [] ∧ s.WellRedirected ∧
      ∀ name, (∀ value, (s.set name value).get? name = some value) ∧
        (s.unset name).get? name = none ∧
        ∃ home, ∀ number other, (number, other) ≠ (home, name) →
          (∀ value, (s.set name value).bindingAt? number other = s.bindingAt? number other) ∧
            (s.unset name).bindingAt? number other = s.bindingAt? number other := by
  intro s
  have h : s.WellRedirected := .run operations
  refine ⟨by simp [frames, toList], h, fun name => ⟨fun value => ?_, ?_, s.resolve name, ?_⟩⟩
  · exact get?_set (h.isSome_scopeAt_resolve name) value
  · exact get?_unset s name
  · intro number other ne
    exact ⟨fun value => bindingAt?_set s name value ne, bindingAt?_unset s name ne⟩

end ScopeStack

end Scriptlet
