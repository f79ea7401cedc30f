import Mathlib.Tactic.Lemma
import Scriptlet.Scope

/-!
# Frames by number

Every operation on a stack of frames, seen from the numbers of the frames: `scopeAt` says what the
scopes are after the operation, `depth` how many calls are in progress, and `current` which frame
owns the innermost scope. The `shape` of a stack is what only entering and leaving calls changes.
-/

namespace Scriptlet

/-- A change of a scope neither gives a frame a scope nor takes it. -/
@[simp]
lemma Frame.ownsScope_mapScope (f : Scope → Scope) (frame : Frame) :
    (frame.mapScope f).ownsScope = frame.ownsScope := by
  simp [Frame.ownsScope, Frame.mapScope]

/-- What of a frame lasts as long as its call: the call, and whether the frame owns a scope. -/
def Frame.identity (f : Frame) : ActiveCall × Bool :=
  (f.call, f.ownsScope)

/-- A change of its scope keeps the identity of a frame. -/
lemma Frame.identity_mapScope (f : Scope → Scope) (frame : Frame) :
    (frame.mapScope f).identity = frame.identity := by
  simp [identity, mapScope, ownsScope]

namespace ScopeStack

/-- What lasts of the frames, innermost first. -/
def shape (s : ScopeStack) : List (ActiveCall × Bool) :=
  s.toList.map Frame.identity

/-- The frames are those of the calls and the global one. -/
@[simp]
lemma length_toList (s : ScopeStack) : s.toList.length = s.depth + 1 := rfl

/-- A frame is pushed in front of all others. -/
@[simp]
lemma toList_push (s : ScopeStack) (f : Frame) : (s.push f).toList = f :: s.toList := rfl

/-- A push makes the stack one deeper. -/
@[simp]
lemma depth_push (s : ScopeStack) (f : Frame) : (s.push f).depth = s.depth + 1 := rfl

/-- A pop makes the stack one less deep, but for the global frame. -/
@[simp]
lemma depth_pop (s : ScopeStack) : s.pop.depth = s.depth - 1 := by
  rcases s with ⟨top, _ | ⟨f, rest⟩⟩ <;> rfl

/-- A pop takes back a push. -/
@[simp]
lemma pop_push (s : ScopeStack) (f : Frame) : (s.push f).pop = s := rfl

/-- No call is left when all are unwound. -/
@[simp]
lemma depth_unwind (s : ScopeStack) : s.unwind.depth = 0 := rfl

/-- The changed frame is the one with that many frames before it in the list. -/
lemma toList_modifyAbove (s : ScopeStack) (f : Frame → Frame) (above : Nat) :
    (s.modifyAbove f above).toList = s.toList.modify above f := by
  cases above <;> rfl

/-- A change of a frame keeps the depth. -/
@[simp]
lemma depth_modifyAbove (s : ScopeStack) (f : Frame → Frame) (above : Nat) :
    (s.modifyAbove f above).depth = s.depth := by
  cases above <;> simp [modifyAbove, depth]

/-- So does a change of a scope. -/
@[simp]
lemma depth_modifyScope (s : ScopeStack) (number : Nat) (f : Scope → Scope) :
    (s.modifyScope number f).depth = s.depth := by
  unfold modifyScope
  split <;> simp

/-- The scope of a frame, which stands in the list as far from its end as its number says. -/
lemma scopeAt_eq (s : ScopeStack) {number : Nat} (h : number ≤ s.depth) :
    s.scopeAt number = s.toList[s.depth - number]?.bind Frame.scope := by
  simp [scopeAt, h]

/-- Above the innermost frame there is no scope. -/
lemma scopeAt_of_depth_lt (s : ScopeStack) {number : Nat} (h : s.depth < number) :
    s.scopeAt number = none := by
  simp [scopeAt, Nat.not_le.2 h]

/-- The frame of a call that begins gets the next number; the others keep theirs. -/
lemma scopeAt_push (s : ScopeStack) (f : Frame) (number : Nat) :
    (s.push f).scopeAt number = if number = s.depth + 1 then f.scope else s.scopeAt number := by
  rcases Nat.lt_or_ge s.depth number with h | h
  · by_cases e : number = s.depth + 1
    · subst e
      rw [if_pos rfl, scopeAt_eq _ (by simp), depth_push, Nat.sub_self]
      rfl
    · rw [if_neg e, scopeAt_of_depth_lt s h]
      exact scopeAt_of_depth_lt _ (by rw [depth_push]; omega)
  · rw [if_neg (by omega), scopeAt_eq s h, scopeAt_eq _ (by rw [depth_push]; omega)]
    rw [toList_push, depth_push, Nat.succ_sub h, List.getElem?_cons_succ]

/-- Leaving a call takes the scope of the highest number away. -/
lemma scopeAt_pop (s : ScopeStack) (number : Nat) :
    s.pop.scopeAt number = if number ≤ s.depth - 1 then s.scopeAt number else none := by
  rcases s with ⟨top, _ | ⟨f, rest⟩⟩
  · split
    · rfl
    · rename_i h
      exact scopeAt_of_depth_lt _ (Nat.lt_of_not_le h)
  · have e : (⟨top, f :: rest⟩ : ScopeStack) = push ⟨f, rest⟩ top := rfl
    rw [e, pop_push, depth_push, scopeAt_push, Nat.add_sub_cancel]
    split
    · rw [if_neg (by omega)]
    · exact scopeAt_of_depth_lt _ (by omega)

/-- Only the global scope is left when all calls are unwound. -/
lemma scopeAt_unwind (s : ScopeStack) (number : Nat) :
    s.unwind.scopeAt number = if number ≤ 0 then s.scopeAt number else none := by
  split
  · rename_i h
    obtain rfl : number = 0 := by omega
    rw [scopeAt_eq _ (Nat.zero_le _), scopeAt_eq _ (Nat.zero_le _)]
    rcases s with ⟨top, below⟩
    rcases List.eq_nil_or_concat below with rfl | ⟨rest, f, rfl⟩
    · rfl
    · simp [unwind, toList, depth]
  · exact scopeAt_of_depth_lt _ (by rw [depth_unwind]; omega)

/-- Only the scope that is changed is another one afterwards. -/
lemma scopeAt_modifyScope (s : ScopeStack) (number : Nat) (f : Scope → Scope) (i : Nat) :
    (s.modifyScope number f).scopeAt i =
      if i = number then (s.scopeAt i).map f else s.scopeAt i := by
  rcases Nat.lt_or_ge s.depth i with h | h
  · rw [scopeAt_of_depth_lt _ (by rwa [depth_modifyScope]), scopeAt_of_depth_lt s h]
    simp
  · rw [scopeAt_eq _ (by rwa [depth_modifyScope]), scopeAt_eq s h, depth_modifyScope]
    unfold modifyScope
    split
    · rw [toList_modifyAbove, List.getElem?_modify]
      by_cases e : i = number
      · subst e
        cases s.toList[s.depth - i]? <;> simp [Frame.mapScope]
      · have other : s.depth - number ≠ s.depth - i := by omega
        simp [e, other]
    · rw [if_neg (by omega)]

/-- What stands in the frames beside their scopes does not matter for these. -/
lemma scopeAt_congr {s t : ScopeStack} (h : s.toList.map Frame.scope = t.toList.map Frame.scope)
    (number : Nat) : s.scopeAt number = t.scopeAt number := by
  have depth : s.depth = t.depth := by
    have lengths := congrArg List.length h
    simpa using lengths
  have frames : ∀ i : Nat, s.toList[i]?.map Frame.scope = t.toList[i]?.map Frame.scope := by
    intro i
    rw [← List.getElem?_map, ← List.getElem?_map, h]
  have joined : ∀ frame : Option Frame, frame.bind Frame.scope = (frame.map Frame.scope).join := by
    intro frame
    cases frame <;> rfl
  rw [scopeAt, scopeAt, depth, joined, joined, frames]

/-- Stacks of one shape have as many calls in progress. -/
lemma depth_eq_of_shape {s t : ScopeStack} (h : s.shape = t.shape) : s.depth = t.depth := by
  have lengths := congrArg List.length h
  simpa [shape] using lengths

/-- Stacks of one shape have the same innermost call. -/
lemma call_top_eq_of_shape {s t : ScopeStack} (h : s.shape = t.shape) : s.top.call = t.top.call :=
  congrArg Prod.fst (List.cons.inj h).1

/-- Which frames own a scope is part of the shape. -/
lemma map_ownsScope_eq_of_shape {s t : ScopeStack} (h : s.shape = t.shape) :
    s.toList.map Frame.ownsScope = t.toList.map Frame.ownsScope := by
  have owners := congrArg (List.map Prod.snd) h
  rw [shape, shape, List.map_map, List.map_map] at owners
  exact owners

/-- Stacks of one shape have the same calls in progress. -/
lemma backtrace_eq_of_shape {s t : ScopeStack} (h : s.shape = t.shape) :
    s.backtrace = t.backtrace := by
  have calls := congrArg (List.map Prod.fst) h
  rw [shape, shape, List.map_map, List.map_map] at calls
  change s.toList.map Frame.call = t.toList.map Frame.call at calls
  rw [backtrace, backtrace, frames, frames, List.map_drop, List.map_drop, List.map_reverse,
    List.map_reverse, calls]

/-- The calls in progress in the frame of one more call. -/
lemma backtrace_push (s : ScopeStack) (f : Frame) :
    (s.push f).backtrace = s.backtrace ++ [f.call] := by
  have some_frame : 1 ≤ s.toList.reverse.length := by simp
  rw [backtrace, frames, toList_push, List.reverse_cons, List.drop_append_of_le_length some_frame]
  exact List.map_append

/-- The backtrace has an entry for each call. -/
@[simp]
lemma length_backtrace (s : ScopeStack) : s.backtrace.length = s.depth := by
  simp [backtrace, frames]

/-- Leaving the call that was entered leaves the shape there was before. -/
lemma shape_pop {s t : ScopeStack} {f : Frame} (h : s.shape = (t.push f).shape) :
    s.pop.shape = t.shape := by
  have rest := (List.cons.inj h).2
  rcases s with ⟨top, _ | ⟨g, below⟩⟩
  · cases rest
  · exact rest

/-- A change of the innermost frame that keeps its identity keeps the shape. -/
lemma shape_modifyTop (s : ScopeStack) {f : Frame → Frame}
    (same : ∀ frame, (f frame).identity = frame.identity) : (s.modifyTop f).shape = s.shape :=
  congrArg (· :: s.below.map Frame.identity) (same s.top)

/-- What a change keeps of every frame is the same for all of them afterwards. -/
lemma map_modifyAbove {α : Type} {g : Frame → α} {f : Frame → Frame}
    (same : ∀ frame, g (f frame) = g frame) (s : ScopeStack) (above : Nat) :
    (s.modifyAbove f above).toList.map g = s.toList.map g := by
  rw [toList_modifyAbove]
  apply List.ext_getElem?
  intro i
  simp only [List.getElem?_map, List.getElem?_modify]
  cases s.toList[i]? with
  | none => rfl
  | some frame => by_cases h : above = i <;> simp [h, same]

/-- A change of a scope keeps what does not depend on scopes. -/
lemma map_modifyScope {α : Type} {g : Frame → α}
    (same : ∀ f frame, g (Frame.mapScope f frame) = g frame) (s : ScopeStack) (number : Nat)
    (f : Scope → Scope) : (s.modifyScope number f).toList.map g = s.toList.map g := by
  unfold modifyScope
  split
  · exact map_modifyAbove (same f) s _
  · rfl

/-- A change of the frame around the innermost one keeps what it keeps of each frame. -/
lemma map_modifyParent {α : Type} {g : Frame → α} {f : Frame → Frame}
    (same : ∀ frame, g (f frame) = g frame) (s : ScopeStack) :
    (s.modifyParent f).toList.map g = s.toList.map g := by
  rcases s with ⟨top, _ | ⟨p, rest⟩⟩
  · exact congrArg (· :: []) (same top)
  · exact congrArg (fun i => g top :: i :: rest.map g) (same p)

/-- Which frames own a scope is not changed by changing a scope. -/
lemma shape_modifyScope (s : ScopeStack) (number : Nat) (f : Scope → Scope) :
    (s.modifyScope number f).shape = s.shape :=
  map_modifyScope Frame.identity_mapScope s number f

/-- Stacks of one shape have the same current scope. -/
lemma current_eq_of_shape {s t : ScopeStack} (h : s.shape = t.shape) : s.current = t.current := by
  have owners := congrArg (List.findIdx id) (map_ownsScope_eq_of_shape h)
  simp only [List.findIdx_map, Function.id_comp] at owners
  rw [current, owners, depth_eq_of_shape h, current]

/-- A change of a scope keeps which one is the current one. -/
@[simp]
lemma current_modifyScope (s : ScopeStack) (number : Nat) (f : Scope → Scope) :
    (s.modifyScope number f).current = s.current :=
  current_eq_of_shape (shape_modifyScope s number f)

/-- The current scope is that of a frame that is there. -/
lemma current_le_depth (s : ScopeStack) : s.current ≤ s.depth :=
  Nat.sub_le _ _

/-- A call that owns a scope has the current one; another leaves it as it is. -/
lemma current_push (s : ScopeStack) (call : ActiveCall) (owns : Bool) :
    (s.push (.ofCall call owns)).current = if owns then s.depth + 1 else s.current := by
  rw [current, toList_push, List.findIdx_cons, depth_push]
  cases owns with
  | true => rfl
  | false =>
    show s.depth + 1 - (s.toList.findIdx Frame.ownsScope + 1) = s.current
    rw [Nat.add_sub_add_right]
    rfl

/-- The innermost call of a definition is where the current scope is, unless that is the global
one. -/
lemma definitionAbove?_eq (s : ScopeStack) :
    s.definitionAbove? = if 0 < s.current then some (s.depth - s.current) else none := by
  have length : s.toList.dropLast.length = s.depth := by simp
  have parts : s.toList.dropLast ++ [s.toList.getLast (List.cons_ne_nil _ _)] = s.toList :=
    List.dropLast_concat_getLast _
  rw [definitionAbove?, current]
  cases e : s.toList.dropLast.findIdx? Frame.ownsScope with
  | none =>
    have above : s.depth ≤ s.toList.findIdx Frame.ownsScope := by
      have none_owns := List.findIdx?_eq_none_iff_findIdx_eq.1 e
      rw [← parts, List.findIdx_append, none_owns, if_neg (Nat.lt_irrefl _)]
      omega
    rw [if_neg (by omega)]
  | some i =>
    obtain ⟨lt, found⟩ := List.findIdx?_eq_some_iff_findIdx_eq.1 e
    have first : s.toList.findIdx Frame.ownsScope = i := by
      rw [← parts, List.findIdx_append, found, if_pos lt]
    rw [first, if_pos (by omega)]
    congr 1
    omega

/-- If the global frame owns a scope, there is an innermost one. -/
lemma isSome_scopeAt_current {s : ScopeStack} (h : (s.scopeAt 0).isSome) :
    (s.scopeAt s.current).isSome := by
  rw [scopeAt_eq s (Nat.zero_le _)] at h
  obtain ⟨scope, h⟩ := Option.isSome_iff_exists.1 h
  obtain ⟨frame, hframe, hscope⟩ := Option.bind_eq_some_iff.1 h
  have owns : ∃ f ∈ s.toList, f.ownsScope :=
    ⟨frame, List.mem_of_getElem? hframe, by simp [Frame.ownsScope, hscope]⟩
  have lt := List.findIdx_lt_length_of_exists owns
  have le : s.toList.findIdx Frame.ownsScope ≤ s.depth := by
    rw [length_toList] at lt
    omega
  have e : s.depth - s.current = s.toList.findIdx Frame.ownsScope := by
    rw [current]
    omega
  have found : (s.toList[s.toList.findIdx Frame.ownsScope]).ownsScope := List.findIdx_getElem
  rw [scopeAt_eq s s.current_le_depth, e, List.getElem?_eq_getElem lt]
  exact found

/-- No frame above the innermost scope owns one. -/
lemma scopeAt_of_current_lt {s : ScopeStack} {number : Nat} (h : s.current < number) :
    s.scopeAt number = none := by
  rcases Nat.lt_or_ge s.depth number with above | le
  · exact scopeAt_of_depth_lt s above
  · have before : s.depth - number < s.toList.findIdx Frame.ownsScope := by
      rw [current] at h
      omega
    have not := List.not_of_lt_findIdx before
    rw [scopeAt_eq s le, List.getElem?_eq_getElem (by rw [length_toList]; omega)]
    simpa [Frame.ownsScope] using not

end ScopeStack

end Scriptlet
