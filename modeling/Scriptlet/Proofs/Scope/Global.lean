import Scriptlet.Proofs.Scope.Bridge
import Scriptlet.Proofs.Scope.Discipline
import Scriptlet.Proofs.Scope.Redirects

/-!
# The global frame

The global frame is the only one that stays from run to run. Whatever a host and its scripts have
done, it owns a scope that forwards nothing, no result is handed to it, and the statement that left
its else-chain open is one that it has counted (`State.Reachable.grounded`).
-/

namespace Scriptlet

variable {σ : Type}

namespace Frame

/-- The statement that left the else-chain open has been counted. -/
def Counted (f : Frame) : Prop :=
  ∀ n, f.openChain = some n → n ≤ f.statements

/-- A new frame has no open chain. -/
lemma counted_ofCall (call : ActiveCall) (owns : Bool) : (ofCall call owns).Counted :=
  fun _ e => nomatch e

/-- Counting a statement keeps what was counted. -/
lemma Counted.countStatement {f : Frame} (h : f.Counted) : f.countStatement.Counted :=
  fun n e => Nat.le_succ_of_le (h n e)

/-- A chain is left open by the last statement that was counted. -/
lemma counted_setChain (f : Frame) (isOpen : Bool) : (f.setChain isOpen).Counted := by
  intro n e
  cases isOpen with
  | false => cases e
  | true => exact Nat.le_of_eq (Option.some.inj e).symm

/-- The frame is as the global frame always is. -/
structure Grounded (f : Frame) : Prop where
  call : f.call = ScopeStack.globalCall
  scope : f.scope.map Scope.redirects = some .empty
  result : f.result = none
  counted : f.Counted

/-- The global frame stays as it is under changes of its scope that forward nothing. -/
lemma Grounded.mapScope {f : Frame} (h : f.Grounded) {change : Scope → Scope}
    (keeps : ∀ scope, scope.redirects = .empty → (change scope).redirects = .empty) :
    (f.mapScope change).Grounded where
  call := h.call
  scope := by
    obtain ⟨scope, owned, empty⟩ := Option.map_eq_some_iff.1 h.scope
    show (f.scope.map change).map Scope.redirects = some .empty
    rw [owned, Option.map_some, Option.map_some, keeps scope empty]
  result := h.result
  counted := h.counted

/-- Counting a statement keeps the global frame as it is. -/
lemma Grounded.countStatement {f : Frame} (h : f.Grounded) : f.countStatement.Grounded :=
  { h with counted := h.counted.countStatement }

/-- So does setting its chain. -/
lemma Grounded.setChain {f : Frame} (h : f.Grounded) (isOpen : Bool) :
    (f.setChain isOpen).Grounded :=
  { h with counted := counted_setChain f isOpen }

end Frame

namespace ScopeStack

/-- The frame around all calls. -/
def globalFrame (s : ScopeStack) : Frame :=
  s.toList.getLast (List.cons_ne_nil _ _)

/-- A call has the same global frame below it. -/
lemma globalFrame_push (s : ScopeStack) (f : Frame) : (s.push f).globalFrame = s.globalFrame :=
  List.getLast_cons (List.cons_ne_nil _ _)

/-- So has what is left when it ends. -/
lemma globalFrame_pop (s : ScopeStack) : s.pop.globalFrame = s.globalFrame := by
  rcases s with ⟨top, _ | ⟨f, rest⟩⟩
  · rfl
  · exact (globalFrame_push ⟨f, rest⟩ top).symm

/-- So has what is left when all calls end. -/
lemma globalFrame_unwind (s : ScopeStack) : s.unwind.globalFrame = s.globalFrame := by
  rcases s with ⟨top, below⟩
  rcases List.eq_nil_or_concat below with rfl | ⟨rest, f, rfl⟩
  · rfl
  · simp [globalFrame, unwind, toList, List.getLast_cons]

/-- Without calls there is nothing to unwind. -/
lemma unwind_of_depth {s : ScopeStack} (h : s.depth = 0) : s.unwind = s := by
  rcases s with ⟨top, _ | ⟨f, rest⟩⟩
  · rfl
  · cases h

/-- As many frames are above the global one as calls are in progress. -/
lemma globalFrame_modifyAbove (s : ScopeStack) (f : Frame → Frame) (above : Nat) :
    (s.modifyAbove f above).globalFrame =
      if above = s.depth then f s.globalFrame else s.globalFrame := by
  have last : ∀ t : ScopeStack, t.toList[t.depth]? = some t.globalFrame := by
    intro t
    have last : t.toList.getLast? = some t.globalFrame := List.getLast?_eq_some_getLast _
    rwa [List.getLast?_eq_getElem?] at last
  have changed := last (s.modifyAbove f above)
  rw [depth_modifyAbove, toList_modifyAbove, List.getElem?_modify, last s] at changed
  split <;> simp_all

/-- The frame around a call has one frame above it; the global frame is around itself. -/
lemma modifyParent_eq (s : ScopeStack) (f : Frame → Frame) :
    s.modifyParent f = s.modifyAbove f (min 1 s.depth) := by
  rcases s with ⟨top, _ | ⟨p, rest⟩⟩
  · rfl
  · have one : min 1 (rest.length + 1) = 1 := by omega
    show _ = modifyAbove _ f (min 1 (rest.length + 1))
    rw [one]
    rfl

/-- The global frame is as it always is. -/
def Grounded (s : ScopeStack) : Prop :=
  s.globalFrame.Grounded

namespace Grounded

variable {s : ScopeStack}

/-- The global frame is in order at the start. -/
lemma initial : ScopeStack.initial.Grounded :=
  ⟨rfl, rfl, rfl, Frame.counted_ofCall _ _⟩

/-- A call leaves the global frame in order. -/
lemma push (h : s.Grounded) (f : Frame) : (s.push f).Grounded := by
  rw [Grounded, globalFrame_push]
  exact h

/-- So does its end. -/
lemma pop (h : s.Grounded) : s.pop.Grounded := by
  rw [Grounded, globalFrame_pop]
  exact h

/-- So does the end of all calls. -/
lemma unwind (h : s.Grounded) : s.unwind.Grounded := by
  rw [Grounded, globalFrame_unwind]
  exact h

/-- A change of a frame keeps the global frame in order unless it is that frame and the change does
not. -/
lemma modifyAbove (h : s.Grounded) {f : Frame → Frame} {above : Nat}
    (keeps : above = s.depth → (f s.globalFrame).Grounded) : (s.modifyAbove f above).Grounded := by
  rw [Grounded, globalFrame_modifyAbove]
  split
  · exact keeps ‹_›
  · exact h

/-- Only of the global scope it matters what a change of a scope does. -/
lemma modifyScope (h : s.Grounded) {number : Nat} {f : Scope → Scope}
    (keeps : number = 0 → ∀ scope, scope.redirects = .empty → (f scope).redirects = .empty) :
    (s.modifyScope number f).Grounded := by
  unfold ScopeStack.modifyScope
  split
  · refine h.modifyAbove fun last => Frame.Grounded.mapScope h (keeps ?_)
    omega
  · exact h

/-- Binding a name keeps the global frame in order. -/
lemma bindLocal (h : s.Grounded) (name value : String) : (s.bindLocal name value).Grounded := by
  refine h.modifyScope fun _ scope empty => ?_
  show scope.redirects.erase name = .empty
  rw [empty]
  rfl

/-- Names are not forwarded from the global scope. -/
lemma redirect (h : s.Grounded) (inner : s.current ≠ 0) (name : String) (target : Nat) :
    (s.redirect name target).Grounded :=
  h.modifyScope fun outermost => absurd outermost inner

/-- Nothing is forwarded by the global frame itself. -/
lemma declareGlobal (h : s.Grounded) (name : String) : (s.declareGlobal name).Grounded := by
  unfold ScopeStack.declareGlobal
  split
  · exact h
  · exact h.redirect ‹_› name 0

/-- No frame is around the global one, so it cannot forward a name either. -/
lemma declareNonlocal (h : s.Grounded) {name : String} {s' : ScopeStack}
    (e : s.declareNonlocal? name = some s') : s'.Grounded := by
  obtain ⟨target, found, rfl⟩ := Option.map_eq_some_iff.1 e
  obtain ⟨number, lt, -⟩ := exists_of_enclosing? found
  exact h.redirect (by omega) name target

/-- A change of the innermost frame keeps the global one in order if it keeps frames in order. -/
lemma modifyTop (h : s.Grounded) {f : Frame → Frame}
    (keeps : ∀ frame : Frame, frame.Grounded → (f frame).Grounded) : (s.modifyTop f).Grounded :=
  show (s.modifyAbove f 0).Grounded from h.modifyAbove fun _ => keeps _ h

/-- So does a change of the frame around it. -/
lemma modifyParent (h : s.Grounded) {f : Frame → Frame}
    (keeps : ∀ frame : Frame, frame.Grounded → (f frame).Grounded) :
    (s.modifyParent f).Grounded := by
  rw [modifyParent_eq]
  exact h.modifyAbove fun _ => keeps _ h

/-- Results are handed to calls of definitions only. -/
lemma setResult (h : s.Grounded) {value : String} {s' : ScopeStack}
    (e : s.setResult? value = some s') : s'.Grounded := by
  obtain ⟨above, found, rfl⟩ := Option.map_eq_some_iff.1 e
  refine h.modifyAbove fun last => ?_
  rw [definitionAbove?_eq] at found
  have le := s.current_le_depth
  split at found
  · cases found
    omega
  · cases found

end Grounded

end ScopeStack

/-- No handler can change what always holds of the global frame. -/
lemma Context.grounded_update {c : Context} (h : c.scopes.Grounded) (change : Update) :
    (c.update change).scopes.Grounded := by
  cases change with
  | set name value => exact h.modifyScope fun _ _ empty => empty
  | unset name => exact h.modifyScope fun _ _ empty => empty
  | declareGlobal name => exact h.declareGlobal name
  | declareNonlocal name =>
    show ((c.scopes.declareNonlocal? name).getD c.scopes).Grounded
    cases e : c.scopes.declareNonlocal? name with
    | none => exact h
    | some scopes => exact h.declareNonlocal e
  | setChain isOpen => exact h.modifyParent fun frame grounded => grounded.setChain isOpen
  | leave result =>
    rw [update]
    cases e : c.scopes.setResult? result with
    | none => exact h
    | some scopes => exact h.setResult e
  | stop => exact h
  | define definition => exact h

/-- Whatever a run does to the context keeps the global frame in order. -/
lemma Evaluation.Passage.grounded {change : Context → Context} (passage : Passage change)
    {c : Context} (h : c.scopes.Grounded) : (change c).scopes.Grounded := by
  refine passage.induction (fun _ name value h => h.bindLocal name value) (fun _ h => ?_) h
  refine h.modifyTop fun frame grounded => ?_
  exact ⟨grounded.call, grounded.scope, rfl, grounded.counted⟩

/-- What always holds of the global frame lasts. -/
lemma ScopeStack.Grounded.bridging : Bridging fun s s' => s.Grounded → s'.Grounded where
  refl _ grounded := grounded
  trans first rest grounded := rest (first grounded)
  push _ _ _ grounded := grounded.push _
  pop _ grounded := grounded.pop
  countStatement _ grounded := grounded.modifyTop fun _ kept => kept.countStatement
  update _ change grounded := Context.grounded_update grounded change
  passage passage _ grounded := passage.grounded grounded

/-- What holds of the frames at first, lasts across whatever a run does to them and is not lost when
the calls in progress are left holds whenever a host has them at hand. -/
lemma State.Reachable.of_bridging {holds : ScopeStack → Prop} (initial : holds .initial)
    (bridging : ScopeStack.Bridging fun s s' => holds s → holds s')
    (unwind : ∀ s, holds s → holds s.unwind) {s : State σ} (h : s.Reachable) :
    holds s.context.scopes := by
  refine of_runs (motive := fun s => holds s.context.scopes)
    ?initial ?host ?update ?interpret ?runPiece h
  case initial =>
    exact fun _ => initial
  case host =>
    exact fun _ held => held
  case update =>
    exact fun change held => bridging.update _ change held
  case interpret =>
    exact fun it node ran => (bridging.run_bridges it it.fuel).1 node _ _ _ ran
  case runPiece =>
    intro s s' result it node ran held
    obtain ⟨s₁, interpreted, rfl⟩ := Interpreter.interpret_of_runPiece ran
    have bridged := (bridging.run_bridges it it.fuel).1 node
    exact unwind _ (bridged _ _ _ interpreted (unwind _ held))

/-- A host always finds the global frame as it always is. -/
lemma State.Reachable.grounded {s : State σ} (h : s.Reachable) : s.context.scopes.Grounded :=
  h.of_bridging .initial ScopeStack.Grounded.bridging fun _ grounded => grounded.unwind

end Scriptlet
