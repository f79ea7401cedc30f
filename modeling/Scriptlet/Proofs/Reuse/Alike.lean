import Mathlib.Data.List.Forall2
import Scriptlet.Proofs.Library.Confined
import Scriptlet.Proofs.Scope.Global

/-!
# Contexts that do alike

Two contexts whose variables and definitions are the same can still differ in the counters of their
global frames, and in the else-chain that is open there. `Alike n` says that two contexts differ in
nothing else, and that their global frames have counted `n` statements since they might differ in the
chain as well. With the first statement, no chain that was open before can be told from a closed one
behind it; with the second, the chains are the same. Every change of a context that a run makes keeps
contexts alike.
-/

namespace Scriptlet

/-- The scopes have the same variables and forward the same names. -/
structure Scope.Alike (a b : Scope) : Prop where
  bindings : ∀ name, a.bindings.get? name = b.bindings.get? name
  redirects : a.redirects = b.redirects

namespace Scope.Alike

/-- A scope is like itself. -/
lemma refl (a : Scope) : a.Alike a :=
  ⟨fun _ => rfl, rfl⟩

variable {a b : Scope}

/-- Scopes stay alike when both give a name the same value. -/
lemma insert (h : a.Alike b) (name value : String) :
    Scope.Alike { a with bindings := a.bindings.insert name value }
      { b with bindings := b.bindings.insert name value } where
  bindings other := by
    rw [Table.get?_insert, Table.get?_insert, h.bindings]
  redirects := h.redirects

/-- Scopes stay alike when both lose a name. -/
lemma erase (h : a.Alike b) (name : String) :
    Scope.Alike { a with bindings := a.bindings.erase name }
      { b with bindings := b.bindings.erase name } where
  bindings other := by
    rw [Table.get?_erase, Table.get?_erase, h.bindings]
  redirects := h.redirects

end Scope.Alike

namespace Frame

/-- Once a statement is counted, an `else` may follow if the statement before it left the chain
open. -/
lemma chainOpen_countStatement (f : Frame) :
    f.countStatement.chainOpen = decide (f.openChain = some f.statements) := by
  rw [chainOpen, countStatement]
  cases f.openChain with
  | none => rfl
  | some n => simp [beq_eq_decide]

/-- The else-chains of the frames differ only as far as that has not been settled by the statements
that they have counted since. -/
structure Chained (counted : Nat) (f g : Frame) : Prop where
  left : f.Counted
  right : g.Counted
  opens : 1 ≤ counted → (f.openChain = some f.statements ↔ g.openChain = some g.statements)
  chainOpen : 2 ≤ counted → f.chainOpen = g.chainOpen

namespace Chained

variable {f g : Frame} {m n : Nat}

/-- After fewer statements, less is asked of the chains. -/
lemma mono (h : f.Chained n g) (le : m ≤ n) : f.Chained m g where
  left := h.left
  right := h.right
  opens one := h.opens (Nat.le_trans one le)
  chainOpen two := h.chainOpen (Nat.le_trans two le)

/-- A frame differs not at all from itself. -/
lemma refl (h : f.Counted) (n : Nat) : f.Chained n f where
  left := h
  right := h
  opens _ := Iff.rfl
  chainOpen _ := rfl

/-- A frame is like the same frame with one more statement, but that its chain may still be open. -/
lemma countRight (h : f.Chained n g) : f.Chained 0 g.countStatement where
  left := h.left
  right := h.right.countStatement
  opens one := nomatch one
  chainOpen two := nomatch two

/-- The statement that is counted has opened no chain, and closes those of the one before it. -/
lemma countStatement (h : f.Chained n g) : f.countStatement.Chained (n + 1) g.countStatement where
  left := h.left.countStatement
  right := h.right.countStatement
  opens _ := by
    have fresh : ∀ {f : Frame}, f.Counted →
        ¬ f.countStatement.openChain = some f.countStatement.statements :=
      fun counted opens => Nat.not_succ_le_self _ (counted _ opens)
    simp [fresh h.left, fresh h.right]
  chainOpen two := by
    rw [chainOpen_countStatement, chainOpen_countStatement]
    exact decide_eq_decide.2 (h.opens (Nat.le_of_succ_le_succ two))

/-- The chains of two frames are settled together. -/
lemma setChain (f g : Frame) (n : Nat) (isOpen : Bool) :
    (f.setChain isOpen).Chained n (g.setChain isOpen) where
  left := counted_setChain f isOpen
  right := counted_setChain g isOpen
  opens _ := by cases isOpen <;> simp [Frame.setChain]
  chainOpen _ := by cases isOpen <;> simp [Frame.setChain, Frame.chainOpen]

end Chained

/-- The frames differ in their variables not at all, and in their else-chains only as far as that has
not been settled. -/
structure Alike (counted : Nat) (f g : Frame) : Prop extends Chained counted f g where
  call : f.call = g.call
  scope : Option.Rel Scope.Alike f.scope g.scope
  result : f.result = g.result

namespace Alike

variable {f g : Frame} {m n : Nat}

/-- Frames that are alike after some statements are alike after fewer. -/
lemma mono (h : f.Alike n g) (le : m ≤ n) : f.Alike m g :=
  { h with toChained := h.toChained.mono le }

/-- A frame is like itself, however many statements were counted. -/
lemma refl (h : f.Counted) (n : Nat) : f.Alike n f where
  toChained := .refl h n
  call := rfl
  scope := by
    cases f.scope with
    | none => exact .none
    | some scope => exact .some (.refl scope)
  result := rfl

/-- A frame is like the same frame with one more statement, but that its chain may still be open. -/
lemma countRight (h : f.Alike n g) : f.Alike 0 g.countStatement where
  toChained := h.toChained.countRight
  call := h.call
  scope := h.scope
  result := h.result

/-- Counting a statement settles the chains further. -/
lemma countStatement (h : f.Alike n g) : f.countStatement.Alike (n + 1) g.countStatement where
  toChained := h.toChained.countStatement
  call := h.call
  scope := h.scope
  result := h.result

/-- Frames stay alike when the chain is set in both. -/
lemma setChain (h : f.Alike n g) (isOpen : Bool) : (f.setChain isOpen).Alike n (g.setChain isOpen) where
  toChained := .setChain f g n isOpen
  call := h.call
  scope := h.scope
  result := h.result

/-- Frames stay alike when their scopes are changed in ways that keep scopes alike. -/
lemma mapScope (h : f.Alike n g) {change : Scope → Scope}
    (keeps : ∀ {a b : Scope}, a.Alike b → (change a).Alike (change b)) :
    (f.mapScope change).Alike n (g.mapScope change) where
  call := h.call
  scope := by
    have scope := h.scope
    show Option.Rel Scope.Alike (f.scope.map change) (g.scope.map change)
    revert scope
    cases f.scope <;> cases g.scope <;> intro scope <;> cases scope
    · exact .none
    · rename_i alike
      exact .some (keeps alike)
  result := h.result
  left := h.left
  right := h.right
  opens := h.opens
  chainOpen := h.chainOpen

/-- Frames stay alike when both are given the same result. -/
lemma setResult (h : f.Alike n g) (result : Option String) :
    Frame.Alike n { f with result := result } { g with result := result } :=
  { h with result := rfl }

/-- Frames that are alike are of the same call, and own a scope or do not. -/
lemma identity (h : f.Alike n g) : f.identity = g.identity := by
  refine Prod.ext h.call ?_
  have scope := h.scope
  show f.scope.isSome = g.scope.isSome
  revert scope
  cases f.scope <;> cases g.scope <;> intro scope <;> cases scope <;> rfl

/-- A name is found in one frame where it is found in the other. -/
lemma finds? (h : f.Alike n g) (number : Nat) (name : String) :
    f.finds? number name = g.finds? number name := by
  have scope := h.scope
  rw [Frame.finds?, Frame.finds?]
  revert scope
  cases f.scope <;> cases g.scope <;> intro scope <;> cases scope
  · rfl
  · rename_i alike
    rw [Option.bind_some, Option.bind_some, Table.contains, Table.contains, alike.bindings,
      alike.redirects]

end Alike

end Frame

/-- The global frames are alike after so many statements, and the frames of calls are alike. -/
inductive FramesAlike (counted : Nat) : List Frame → List Frame → Prop
  | global {f g : Frame} : f.Alike counted g → FramesAlike counted [f] [g]
  | call {f g : Frame} {fs gs : List Frame} :
    f.Alike 2 g → FramesAlike counted fs gs → FramesAlike counted (f :: fs) (g :: gs)

namespace FramesAlike

variable {fs gs : List Frame} {n : Nat}

/-- The frames are alike one by one, though nothing need have been counted. -/
lemma forall₂ (h : FramesAlike n fs gs) : List.Forall₂ (Frame.Alike 0) fs gs := by
  induction h with
  | global alike => exact .cons (alike.mono (Nat.zero_le n)) .nil
  | call alike _ ih => exact .cons (alike.mono (Nat.zero_le 2)) ih

/-- The same change is made to frames with the same number. -/
lemma modify (h : FramesAlike n fs gs) {change : Frame → Frame}
    (keeps : ∀ {m f g}, Frame.Alike m f g → (change f).Alike m (change g)) (i : Nat) :
    FramesAlike n (fs.modify i change) (gs.modify i change) := by
  induction h generalizing i with
  | global alike =>
    cases i with
    | zero => exact .global (keeps alike)
    | succ i =>
      rw [List.modify_succ_cons, List.modify_succ_cons, List.modify_nil]
      exact .global alike
  | call alike rest ih =>
    cases i with
    | zero => exact .call (keeps alike) rest
    | succ i => exact .call alike (ih i)

/-- Frames that are alike after some statements are alike after fewer. -/
lemma mono {m : Nat} (h : FramesAlike n fs gs) (le : m ≤ n) : FramesAlike m fs gs := by
  induction h with
  | global alike => exact .global (alike.mono le)
  | call alike _ ih => exact .call alike ih

end FramesAlike

/-- Names are found in frames that are alike in the same place. -/
lemma ScopeStack.findOutward_eq (name : String) {fs gs : List Frame}
    (h : List.Forall₂ (Frame.Alike 0) fs gs) : findOutward name fs = findOutward name gs := by
  induction h with
  | nil => rfl
  | cons alike rest ih => rw [findOutward, findOutward, ih, alike.finds?, rest.length_eq]

/-- The frames are alike, the global ones after they have counted so many statements. -/
def ScopeStack.Alike (counted : Nat) (s t : ScopeStack) : Prop :=
  FramesAlike counted s.toList t.toList

namespace ScopeStack.Alike

variable {s t : ScopeStack} {n : Nat}

/-- Stacks that are alike have the same calls in progress. -/
lemma shape (h : s.Alike n t) : s.shape = t.shape := by
  have same : ∀ {fs gs : List Frame}, FramesAlike n fs gs →
      fs.map Frame.identity = gs.map Frame.identity := by
    intro fs gs frames
    induction frames with
    | global alike => rw [List.map_cons, List.map_cons, alike.identity]
    | call alike _ ih => rw [List.map_cons, List.map_cons, alike.identity, ih]
  exact same h

/-- Stacks that are alike are equally deep. -/
lemma depth (h : s.Alike n t) : s.depth = t.depth :=
  depth_eq_of_shape h.shape

/-- The innermost frames are alike. -/
lemma top (h : s.Alike n t) : s.top.Alike 0 t.top := by
  cases h.forall₂ with
  | cons alike _ => exact alike

/-- The frame around a call has the same chain, unless it is the global one too early. -/
lemma chainOpen_parent (h : s.Alike n t) (calling : 1 ≤ s.depth) (settled : 2 ≤ n ∨ 2 ≤ s.depth) :
    s.parent.chainOpen = t.parent.chainOpen := by
  rcases s with ⟨top, _ | ⟨p, rest⟩⟩
  · cases calling
  · rcases t with ⟨top', _ | ⟨p', rest'⟩⟩
    · cases h with
      | call _ rest => cases rest
    · cases h with
      | call _ rest =>
        cases rest with
        | global alike =>
          rcases settled with settled | deep
          · exact alike.chainOpen settled
          · exact absurd deep (by simp [ScopeStack.depth])
        | call alike _ => exact alike.chainOpen (Nat.le_refl 2)

/-- Frames with the same number have scopes that are alike. -/
lemma scopeAt (h : s.Alike n t) (number : Nat) :
    Option.Rel Scope.Alike (s.scopeAt number) (t.scopeAt number) := by
  rcases Nat.lt_or_ge s.depth number with above | le
  · rw [scopeAt_of_depth_lt s above, scopeAt_of_depth_lt t (h.depth ▸ above)]
    exact .none
  · rw [scopeAt_eq s le, scopeAt_eq t (h.depth ▸ le), h.depth]
    have frames := List.forall₂_iff_get.1 h.forall₂
    cases e : s.toList[t.depth - number]? with
    | none =>
      have beyond := List.getElem?_eq_none_iff.1 e
      rw [List.getElem?_eq_none (frames.1 ▸ beyond)]
      exact .none
    | some frame =>
      obtain ⟨lt, rfl⟩ := List.getElem?_eq_some_iff.1 e
      rw [List.getElem?_eq_getElem (frames.1 ▸ lt)]
      exact (frames.2 _ lt (frames.1 ▸ lt)).scope

/-- What depends on a scope as a whole is the same. -/
lemma bind_scopeAt {α : Type} (h : s.Alike n t) (number : Nat) {f : Scope → Option α}
    (same : ∀ {a b : Scope}, a.Alike b → f a = f b) :
    (s.scopeAt number).bind f = (t.scopeAt number).bind f := by
  have scope := h.scopeAt number
  revert scope
  cases s.scopeAt number <;> cases t.scopeAt number <;> intro scope <;> cases scope
  · rfl
  · rename_i alike
    exact same alike

/-- The current scope is that of the same frame. -/
lemma current (h : s.Alike n t) : s.current = t.current :=
  current_eq_of_shape h.shape

/-- A name leads to the same frame. -/
lemma resolve (h : s.Alike n t) (name : String) : s.resolve name = t.resolve name := by
  rw [ScopeStack.resolve, ScopeStack.resolve, h.current,
    h.bind_scopeAt t.current fun alike => by rw [alike.redirects]]

/-- A name has the same value. -/
lemma get? (h : s.Alike n t) (name : String) : s.get? name = t.get? name := by
  rw [ScopeStack.get?, ScopeStack.get?, h.resolve]
  exact h.bind_scopeAt _ fun alike => alike.bindings name

/-- The scopes of a frame give a name the same value. -/
lemma bindingAt? (h : s.Alike n t) (number : Nat) (name : String) :
    s.bindingAt? number name = t.bindingAt? number name :=
  h.bind_scopeAt number fun alike => alike.bindings name

/-- The same frame around the current one has the name. -/
lemma enclosing? (h : s.Alike n t) (name : String) : s.enclosing? name = t.enclosing? name := by
  rw [ScopeStack.enclosing?, ScopeStack.enclosing?, h.depth, h.current]
  exact findOutward_eq name (List.forall₂_drop _ h.forall₂)

/-- The same definition is running. -/
lemma definitionAbove? (h : s.Alike n t) : s.definitionAbove? = t.definitionAbove? := by
  rw [definitionAbove?_eq, definitionAbove?_eq, h.current, h.depth]

/-- Stacks stay alike when the same call is pushed. -/
lemma push (h : s.Alike n t) (call : ActiveCall) (owns : Bool) :
    (s.push (.ofCall call owns)).Alike n (t.push (.ofCall call owns)) :=
  .call (.refl (Frame.counted_ofCall call owns) 2) h

/-- Stacks stay alike when a call is popped. -/
lemma pop (h : s.Alike n t) : s.pop.Alike n t.pop := by
  rcases s with ⟨top, _ | ⟨f, rest⟩⟩ <;> rcases t with ⟨top', _ | ⟨f', rest'⟩⟩
  · exact h
  · cases h with
    | call _ rest => cases rest
  · cases h with
    | call _ rest => cases rest
  · cases h with
    | call _ rest => exact rest

/-- Stacks stay alike when the frames at the same place are changed in a way that keeps frames
alike. -/
lemma modifyAbove (h : s.Alike n t) {change : Frame → Frame}
    (keeps : ∀ {m f g}, Frame.Alike m f g → (change f).Alike m (change g)) (above : Nat) :
    (s.modifyAbove change above).Alike n (t.modifyAbove change above) := by
  rw [Alike, toList_modifyAbove, toList_modifyAbove]
  exact h.modify keeps above

/-- The same for the innermost frame. -/
lemma modifyTop (h : s.Alike n t) {change : Frame → Frame}
    (keeps : ∀ {m f g}, Frame.Alike m f g → (change f).Alike m (change g)) :
    (s.modifyTop change).Alike n (t.modifyTop change) :=
  show (s.modifyAbove change 0).Alike n (t.modifyAbove change 0) from h.modifyAbove keeps 0

/-- The same for the frame around it. -/
lemma modifyParent (h : s.Alike n t) {change : Frame → Frame}
    (keeps : ∀ {m f g}, Frame.Alike m f g → (change f).Alike m (change g)) :
    (s.modifyParent change).Alike n (t.modifyParent change) := by
  rw [modifyParent_eq, modifyParent_eq, h.depth]
  exact h.modifyAbove keeps _

/-- The same for the scope of a frame. -/
lemma modifyScope (h : s.Alike n t) (number : Nat) {change : Scope → Scope}
    (keeps : ∀ {a b : Scope}, a.Alike b → (change a).Alike (change b)) :
    (s.modifyScope number change).Alike n (t.modifyScope number change) := by
  rw [ScopeStack.modifyScope, ScopeStack.modifyScope, h.depth]
  split
  · exact h.modifyAbove (fun alike => alike.mapScope keeps) _
  · exact h

/-- Stacks stay alike when the same name is bound in the current scope. -/
lemma bindLocal (h : s.Alike n t) (name value : String) :
    (s.bindLocal name value).Alike n (t.bindLocal name value) := by
  rw [ScopeStack.bindLocal, ScopeStack.bindLocal, h.current]
  refine h.modifyScope _ fun alike => ⟨(alike.insert name value).bindings, ?_⟩
  rw [alike.redirects]

/-- Stacks stay alike when the same name is forwarded. -/
lemma redirect (h : s.Alike n t) (name : String) (target : Nat) :
    (s.redirect name target).Alike n (t.redirect name target) := by
  rw [ScopeStack.redirect, ScopeStack.redirect, h.current]
  refine h.modifyScope _ fun alike => ⟨alike.bindings, ?_⟩
  rw [alike.redirects]

/-- Stacks stay alike when the same name is set. -/
lemma set (h : s.Alike n t) (name value : String) : (s.set name value).Alike n (t.set name value) := by
  rw [ScopeStack.set, ScopeStack.set, h.resolve]
  exact h.modifyScope _ fun alike => alike.insert name value

/-- Stacks stay alike when the same name is removed. -/
lemma unset (h : s.Alike n t) (name : String) : (s.unset name).Alike n (t.unset name) := by
  rw [ScopeStack.unset, ScopeStack.unset, h.resolve]
  exact h.modifyScope _ fun alike => alike.erase name

/-- Stacks stay alike when the same name is declared global. -/
lemma declareGlobal (h : s.Alike n t) (name : String) :
    (s.declareGlobal name).Alike n (t.declareGlobal name) := by
  rw [ScopeStack.declareGlobal, ScopeStack.declareGlobal, h.current]
  split
  · exact h
  · exact h.redirect name 0

/-- Stacks stay alike when the same name is declared nonlocal, which fails in both or in neither. -/
lemma declareNonlocal (h : s.Alike n t) (name : String) :
    ((s.declareNonlocal? name).getD s).Alike n ((t.declareNonlocal? name).getD t) := by
  rw [ScopeStack.declareNonlocal?, ScopeStack.declareNonlocal?, h.enclosing?]
  cases t.enclosing? name with
  | none => exact h
  | some target => exact h.redirect name target

/-- Stacks stay alike when the same arguments are bound to the same parameters. -/
lemma bindParams (h : s.Alike n t) (definition : Definition) (args : List String) :
    (Interpreter.bindParams definition args s).Alike n
      (Interpreter.bindParams definition args t) :=
  Interpreter.bindParams_induction₂ (fun _ _ name value alike => alike.bindLocal name value) h definition
    args

/-- Outside of all calls, there are no frames but the global ones. -/
lemma global_of_outermost (h : s.Alike n t) (outermost : s.depth = 0) :
    ∃ f g, s = ⟨f, []⟩ ∧ t = ⟨g, []⟩ ∧ f.Alike n g := by
  rcases s with ⟨f, _ | ⟨_, _⟩⟩
  · rcases t with ⟨g, _ | ⟨_, _⟩⟩
    · cases h with
      | global alike => exact ⟨f, g, rfl, rfl, alike⟩
      | call _ rest => cases rest
    · cases h with
      | call _ rest => cases rest
  · cases outermost

/-- The first statements that the global frames count settle their chains. -/
lemma countStatement (h : s.Alike n t) (outermost : s.depth = 0) :
    (s.modifyTop Frame.countStatement).Alike (n + 1) (t.modifyTop Frame.countStatement) := by
  obtain ⟨f, g, rfl, rfl, alike⟩ := h.global_of_outermost outermost
  exact .global alike.countStatement

/-- One more statement can be counted on one side alone, but then the chains may differ. -/
lemma countRight (h : s.Alike n t) (outermost : s.depth = 0) :
    s.Alike 0 (t.modifyTop Frame.countStatement) := by
  obtain ⟨f, g, rfl, rfl, alike⟩ := h.global_of_outermost outermost
  exact .global alike.countRight

/-- A stack with no call in progress is like itself, however many statements were counted. -/
lemma refl (grounded : s.Grounded) (outermost : s.depth = 0) (n : Nat) : s.Alike n s := by
  rcases s with ⟨top, _ | ⟨f, rest⟩⟩
  · exact .global (.refl grounded.counted n)
  · cases outermost

/-- The global frames of two contexts are alike from the start if they have the same variables. -/
lemma of_grounded (hs : s.Grounded) (ht : t.Grounded) (outermost : s.depth = 0)
    (outermost' : t.depth = 0) (same : ∀ name, s.bindingAt? 0 name = t.bindingAt? 0 name) :
    s.Alike 0 t := by
  rcases s with ⟨f, _ | _⟩ <;> rcases t with ⟨g, _ | _⟩
  · obtain ⟨a, owned, empty⟩ := Option.map_eq_some_iff.1 hs.scope
    obtain ⟨b, owned', empty'⟩ := Option.map_eq_some_iff.1 ht.scope
    change f.scope = some a at owned
    change g.scope = some b at owned'
    refine .global ⟨⟨hs.counted, ht.counted, nofun, nofun⟩, hs.call.trans ht.call.symm, ?_,
      hs.result.trans ht.result.symm⟩
    rw [owned, owned']
    refine .some ⟨fun name => ?_, empty.trans empty'.symm⟩
    have bound := same name
    simpa [ScopeStack.bindingAt?, ScopeStack.scopeAt, ScopeStack.depth, toList, owned, owned']
      using bound
  · cases outermost'
  · cases outermost
  · cases outermost

end ScopeStack.Alike

/-- The contexts differ in no more than their global frames may after so many statements, and in the
number of steps. -/
structure Context.Alike (counted : Nat) (c c' : Context) : Prop where
  scopes : c.scopes.Alike counted c'.scopes
  definitions : ∀ key, c.definitions.get? key = c'.definitions.get? key
  flow : c.flow = c'.flow

namespace Context.Alike

variable {c c' : Context} {n : Nat}

/-- Contexts that are alike after some statements are alike after fewer. -/
lemma mono {m : Nat} (h : c.Alike n c') (le : m ≤ n) : c.Alike m c' :=
  ⟨FramesAlike.mono h.scopes le, h.definitions, h.flow⟩

/-- Contexts that are alike look alike to a handler. -/
lemma looksLike (h : c.Alike n c') : c.LooksLike c' where
  get? name := h.scopes.get? name
  definition? kind name := by
    cases kind with
    | control => rfl
    | _ => exact h.definitions _
  flow := h.flow
  result := h.scopes.top.result
  enclosing? name := congrArg Option.isSome (h.scopes.enclosing? name)
  definitionAbove? := congrArg Option.isSome h.scopes.definitionAbove?

/-- Handlers make the same changes to both contexts. -/
lemma update (h : c.Alike n c') (change : Update) : (c.update change).Alike n (c'.update change) := by
  cases change with
  | set name value => exact ⟨h.scopes.set name value, h.definitions, h.flow⟩
  | unset name => exact ⟨h.scopes.unset name, h.definitions, h.flow⟩
  | declareGlobal name => exact ⟨h.scopes.declareGlobal name, h.definitions, h.flow⟩
  | declareNonlocal name => exact ⟨h.scopes.declareNonlocal name, h.definitions, h.flow⟩
  | setChain isOpen =>
    exact ⟨h.scopes.modifyParent fun alike => alike.setChain isOpen, h.definitions, h.flow⟩
  | leave result =>
    rw [Context.update, Context.update, ScopeStack.setResult?, ScopeStack.setResult?,
      h.scopes.definitionAbove?]
    cases c'.scopes.definitionAbove? with
    | none => exact h
    | some above =>
      refine ⟨?_, h.definitions, rfl⟩
      exact h.scopes.modifyAbove (fun alike => alike.setResult (some result)) above
  | stop => exact ⟨h.scopes, h.definitions, rfl⟩
  | define definition =>
    refine ⟨h.scopes, fun key => ?_, h.flow⟩
    show (c.definitions.insert _ definition).get? key = (c'.definitions.insert _ definition).get? key
    rw [Table.get?_insert, Table.get?_insert, h.definitions]

/-- The way into and out of a definition is the same in both contexts. -/
lemma passage {change : Context → Context} (passage : Evaluation.Passage change)
    (h : c.Alike n c') : (change c).Alike n (change c') := by
  cases passage with
  | bindParams definition args =>
    exact ⟨h.scopes.bindParams definition args, h.definitions, h.flow⟩
  | arrive =>
    rw [Interpreter.arrive, Interpreter.arrive, h.flow]
    split
    · exact ⟨h.scopes, h.definitions, rfl⟩
    · exact h
  | takeResult =>
    exact ⟨h.scopes.modifyTop fun alike => alike.setResult none, h.definitions, h.flow⟩

end Context.Alike

end Scriptlet
