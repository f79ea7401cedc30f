import Scriptlet.Proofs.Evaluation.Changes

/-!
# Sealed frames

The frames below a call that owns a scope are sealed as long as no scope from its frame upwards
forwards a name: every operation but `redirect` finds the frame that it changes among those.
-/

namespace Scriptlet

/-- The frame forwards no names. -/
def Frame.Keeps (frame : Frame) : Prop :=
  ∀ scope, frame.scope = some scope → scope.redirects = .empty

/-- A new frame forwards nothing. -/
lemma Frame.keeps_ofCall (call : ActiveCall) (owns : Bool) : (Frame.ofCall call owns).Keeps := by
  intro scope e
  cases owns with
  | false => cases e
  | true =>
    cases e
    rfl

namespace ScopeStack

/-- The frames below the call with so many frames above it are these, the call owns a scope, and
neither its frame nor one above it forwards names. -/
structure Sealed (sealed : List Frame) (above : Nat) (s : ScopeStack) : Prop where
  below : s.toList.drop (above + 1) = sealed
  owns : ∃ own, s.toList[above]? = some own ∧ own.ownsScope
  keeps : ∀ i frame, i ≤ above → s.toList[i]? = some frame → frame.Keeps

namespace Sealed

variable {s : ScopeStack} {sealed : List Frame} {above : Nat}

/-- A call that begins seals the frames there are. -/
lemma enter (s : ScopeStack) (call : ActiveCall) :
    Sealed s.toList 0 (s.push (.ofCall call true)) where
  below := rfl
  owns := ⟨_, rfl, rfl⟩
  keeps i frame le e := by
    obtain rfl := Nat.le_zero.1 le
    cases e
    exact Frame.keeps_ofCall call true

/-- The frames stay sealed through a call. -/
lemma push (h : Sealed sealed above s) (call : ActiveCall) (owns : Bool) :
    Sealed sealed (above + 1) (s.push (.ofCall call owns)) where
  below := h.below
  owns := h.owns
  keeps i frame le e := by
    cases i with
    | zero =>
      cases e
      exact Frame.keeps_ofCall call owns
    | succ i => exact h.keeps i frame (Nat.le_of_succ_le_succ le) e

/-- And through the end of a call further in. -/
lemma pop (h : Sealed sealed (above + 1) s) : Sealed sealed above s.pop := by
  rcases s with ⟨top, _ | ⟨f, rest⟩⟩
  · obtain ⟨own, e, _⟩ := h.owns
    cases e
  · exact ⟨h.below, h.owns, fun i frame le => h.keeps (i + 1) frame (Nat.succ_le_succ le)⟩

/-- A frame is changed that is not sealed. -/
lemma modifyAbove (h : Sealed sealed above s) {f : Frame → Frame} {i : Nat} (le : i ≤ above)
    (owns : ∀ frame, (f frame).ownsScope = frame.ownsScope)
    (keeps : ∀ frame, frame.Keeps → (f frame).Keeps) :
    Sealed sealed above (s.modifyAbove f i) := by
  refine ⟨?_, ?_, ?_⟩
  · rw [toList_modifyAbove, List.drop_modify_of_lt _ _ _ _ (Nat.lt_succ_of_le le)]
    exact h.below
  · obtain ⟨own, e, owned⟩ := h.owns
    rw [toList_modifyAbove, List.getElem?_modify, e]
    by_cases same : i = above
    · exact ⟨f own, by simp [same], by rwa [owns]⟩
    · exact ⟨own, by simp [same], owned⟩
  · intro j frame le e
    rw [toList_modifyAbove, List.getElem?_modify] at e
    by_cases same : i = j
    · cases found : s.toList[j]? with
      | none => simp [found] at e
      | some before =>
        obtain rfl : f before = frame := by simpa [found, same] using e
        exact keeps before (h.keeps j before le found)
    · exact h.keeps j frame le (by simpa [same] using e)

/-- The current scope is not sealed. -/
lemma depth_sub_current_le (h : Sealed sealed above s) : s.depth - s.current ≤ above := by
  obtain ⟨own, e, owned⟩ := h.owns
  have le : s.toList.findIdx Frame.ownsScope ≤ above := by
    rcases Nat.lt_or_ge above (s.toList.findIdx Frame.ownsScope) with before | le
    · -- the call itself owns a scope, so the innermost one is not below it
      have not := List.not_of_lt_findIdx before
      obtain ⟨_, found⟩ := List.getElem?_eq_some_iff.1 e
      rw [found, owned] at not
      cases not
    · exact le
  rw [current]
  omega

/-- And through a change of the current scope that forwards nothing. -/
lemma modifyCurrent (h : Sealed sealed above s) {f : Scope → Scope}
    (keeps : ∀ scope, scope.redirects = .empty → (f scope).redirects = .empty) :
    Sealed sealed above (s.modifyScope s.current f) := by
  rw [modifyScope, if_pos s.current_le_depth]
  refine h.modifyAbove h.depth_sub_current_le (Frame.ownsScope_mapScope f) ?_
  intro frame kept scope e
  obtain ⟨before, e', rfl⟩ := Option.map_eq_some_iff.1 e
  exact keeps before (kept before e')

/-- Every name lives in the current scope. -/
lemma resolve_eq (h : Sealed sealed above s) (name : String) : s.resolve name = s.current := by
  rw [resolve]
  cases e : s.scopeAt s.current with
  | none => rfl
  | some scope =>
    rw [scopeAt_eq s s.current_le_depth] at e
    obtain ⟨frame, found, e⟩ := Option.bind_eq_some_iff.1 e
    have kept := h.keeps _ frame h.depth_sub_current_le found scope e
    simp [kept]

/-- And when a name is set, which leads nowhere below. -/
lemma set (h : Sealed sealed above s) (name value : String) :
    Sealed sealed above (s.set name value) := by
  rw [ScopeStack.set, h.resolve_eq]
  exact h.modifyCurrent fun _ kept => kept

/-- And when a name is removed. -/
lemma unset (h : Sealed sealed above s) (name : String) :
    Sealed sealed above (s.unset name) := by
  rw [ScopeStack.unset, h.resolve_eq]
  exact h.modifyCurrent fun _ kept => kept

/-- And when a name is bound in the current scope. -/
lemma bindLocal (h : Sealed sealed above s) (name value : String) :
    Sealed sealed above (s.bindLocal name value) := by
  refine h.modifyCurrent fun scope kept => ?_
  show scope.redirects.erase name = .empty
  rw [kept]
  rfl

/-- And through a change of the innermost frame that keeps its scope. -/
lemma modifyTop (h : Sealed sealed above s) {f : Frame → Frame}
    (same : ∀ frame, (f frame).scope = frame.scope) : Sealed sealed above (s.modifyTop f) :=
  h.modifyAbove (i := 0) (Nat.zero_le _) (fun frame => congrArg Option.isSome (same frame))
    fun frame kept scope e => kept scope ((same frame).symm.trans e)

/-- A call within the call changes the frame around it, which is not sealed. -/
lemma modifyParent (h : Sealed sealed (above + 1) s) {f : Frame → Frame}
    (same : ∀ frame, (f frame).scope = frame.scope) :
    Sealed sealed (above + 1) (s.modifyParent f) := by
  rcases s with ⟨top, _ | ⟨p, rest⟩⟩
  · obtain ⟨own, e, _⟩ := h.owns
    cases e
  · refine h.modifyAbove (i := 1) (Nat.le_add_left _ _) ?_ ?_
    · exact fun frame => congrArg Option.isSome (same frame)
    · exact fun frame kept scope e => kept scope ((same frame).symm.trans e)

/-- A result is not handed beyond the call. -/
lemma setResult (h : Sealed sealed above s) {value : String} {s' : ScopeStack}
    (e : s.setResult? value = some s') : Sealed sealed above s' := by
  obtain ⟨i, found, rfl⟩ := Option.map_eq_some_iff.1 e
  obtain ⟨lt, _, first⟩ := List.findIdx?_eq_some_iff_getElem.1 found
  have le : i ≤ above := by
    rcases Nat.lt_or_ge above i with beyond | le
    · -- the search for an owner would have stopped at the call itself
      obtain ⟨own, own_at, owned⟩ := h.owns
      obtain ⟨_, own_at⟩ := List.getElem?_eq_some_iff.1 own_at
      have not := first above beyond
      rw [List.getElem_dropLast, own_at] at not
      exact absurd owned not
    · exact le
  exact h.modifyAbove le (fun frame => rfl) fun frame kept => kept

end Sealed

end ScopeStack

/-- Whether a change forwards a name of the current scope. -/
def Update.Forwards : Update → Prop
  | declareGlobal _ | declareNonlocal _ => True
  | _ => False

/-- A handler within the call changes no sealed frame as long as it forwards no name. -/
lemma Context.sealed_update {c : Context} {sealed : List Frame} {above : Nat}
    (h : c.scopes.Sealed sealed (above + 1)) {change : Update} (keeps : ¬ change.Forwards) :
    (c.update change).scopes.Sealed sealed (above + 1) := by
  cases change with
  | set name value => exact h.set name value
  | unset name => exact h.unset name
  | declareGlobal name => exact absurd trivial keeps
  | declareNonlocal name => exact absurd trivial keeps
  | setChain isOpen => exact h.modifyParent (f := (·.setChain isOpen)) fun frame => rfl
  | leave result =>
    rw [update]
    cases e : c.scopes.setResult? result with
    | none => exact h
    | some scopes => exact h.setResult e
  | stop => exact h
  | define definition => exact h

/-- The way into and out of a definition changes no sealed frame. -/
lemma Evaluation.Passage.sealed {change : Context → Context} (passage : Passage change)
    {c : Context} {sealed : List Frame} {above : Nat} (h : c.scopes.Sealed sealed above) :
    (change c).scopes.Sealed sealed above := by
  refine passage.induction (fun _ name value h => h.bindLocal name value) (fun _ h => ?_) h
  exact h.modifyTop (f := fun frame => { frame with result := none }) fun frame => rfl

end Scriptlet
