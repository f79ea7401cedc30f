import Scriptlet.Proofs.Checked.Frames
import Scriptlet.Proofs.Reuse.Alike
import Scriptlet.Proofs.Scope.Nonlocal

/-!
# More frames in between

A call that owns no scope can stand around others without their variables being any different: the
frames behind it get higher numbers, and what scopes forward to them is forwarded to the higher ones
(`Splice.move`). `Spliced` says that two stacks differ by such frames, by the else-chains of the
frames before these, and by that of the frame right behind them as far as it has not been settled.
Every change of a context that a run makes keeps contexts spliced.
-/

namespace Scriptlet

/-- So many frames are put in before the frame with this number, which is not the global one. -/
structure Splice where
  base : Nat
  extra : Nat
  inner : 0 < base

namespace Splice

variable (p : Splice) {m n : Nat}

/-- One more frame is put in. -/
def more : Splice :=
  ⟨p.base, p.extra + 1, p.inner⟩

/-- One frame more is put in at the same number. -/
@[simp]
lemma base_more : p.more.base = p.base := rfl

/-- One frame more is one more. -/
@[simp]
lemma extra_more : p.more.extra = p.extra + 1 := rfl

/-- The number that a frame gets. -/
def move (number : Nat) : Nat :=
  if number < p.base then number else number + p.extra

/-- Frames below those that are put in keep their numbers. -/
lemma move_of_lt (lt : n < p.base) : p.move n = n :=
  if_pos lt

/-- Frames above those that are put in are moved by as many. -/
lemma move_of_le (le : p.base ≤ n) : p.move n = n + p.extra :=
  if_neg (Nat.not_lt.2 le)

/-- The global frame keeps its number. -/
lemma move_zero : p.move 0 = 0 :=
  p.move_of_lt p.inner

/-- Frames are moved in order. -/
lemma move_le_move : p.move m ≤ p.move n ↔ m ≤ n := by
  unfold move
  split <;> split <;> omega

/-- No two frames are moved to one number. -/
lemma move_inj : p.move m = p.move n ↔ m = n := by
  have le := p.move_le_move (m := m) (n := n)
  have ge := p.move_le_move (m := n) (n := m)
  omega

/-- A frame that was not put in had a number before. -/
lemma exists_move (other : n < p.base ∨ p.base + p.extra ≤ n) : ∃ m, p.move m = n := by
  rcases other with lt | le
  · exact ⟨n, p.move_of_lt lt⟩
  · refine ⟨n - p.extra, ?_⟩
    rw [p.move_of_le (by omega)]
    omega

/-- How far the else-chain of a frame is settled: nothing is known of those before the frames that
were put in, and all of the frames behind the one that follows them. -/
def settled (counted number : Nat) : Option Nat :=
  if number < p.base then none else if number = p.base then some counted else some 2

/-- The frame at which others are put in has so many marks settled. -/
lemma settled_base (counted : Nat) : p.settled counted p.base = some counted := by
  rw [settled, if_neg (Nat.lt_irrefl _), if_pos rfl]

/-- Above it all marks of a frame are settled. -/
lemma settled_of_lt (counted : Nat) (lt : p.base < n) : p.settled counted n = some 2 := by
  rw [settled, if_neg (by omega), if_neg (by omega)]

/-- Of another frame as much is settled, however much is of that one. -/
lemma settled_of_ne (counted counted' : Nat) (other : n ≠ p.base) :
    p.settled counted n = p.settled counted' n := by
  rw [settled, settled, if_neg other, if_neg other]

end Splice

/-- The scopes have the same variables, and what the first forwards to a frame the second forwards
to the number that the frame gets. -/
structure Scope.Moved (p : Splice) (a b : Scope) : Prop where
  bindings : a.bindings = b.bindings
  redirects : ∀ name, b.redirects.get? name = (a.redirects.get? name).map p.move

/-- The frames have the same variables and the same result, and their else-chains differ only as far
as it has not been settled. -/
structure Frame.Moved (p : Splice) (settled : Option Nat) (f g : Frame) : Prop where
  scope : Option.Rel (Scope.Moved p) f.scope g.scope
  result : f.result = g.result
  chained : ∀ n ∈ settled, f.Chained n g
  idle : ∀ n ∈ settled, f.scope = none → f.result = none

/-- The scopes have the same variables and forward the same names to the same frames. -/
structure Scope.SameData (a b : Scope) : Prop where
  bindings : a.bindings = b.bindings
  redirects : ∀ name, a.redirects.get? name = b.redirects.get? name

/-- The frames have the same variables, forward the same names and hold the same result. -/
structure Frame.SameData (f g : Frame) : Prop where
  scope : Option.Rel Scope.SameData f.scope g.scope
  result : f.result = g.result

/-- Frames that have left no chain open cannot be told apart by their chains. -/
lemma Frame.Chained.of_closed {f g : Frame} (left : f.openChain = none) (right : g.openChain = none)
    (n : Nat) : f.Chained n g where
  left number opens := nomatch left.symm.trans opens
  right number opens := nomatch right.symm.trans opens
  opens _ := by rw [left, right]; simp
  chainOpen _ := by rw [Frame.chainOpen, Frame.chainOpen, left, right]

namespace Frame.Moved

variable {p : Splice} {settled : Option Nat} {f g : Frame}

/-- The frames of calls that begin are alike. -/
lemma ofCall (settled : Option Nat) (call call' : ActiveCall) (owns : Bool) :
    (Frame.ofCall call owns).Moved p settled (.ofCall call' owns) where
  scope := by
    cases owns with
    | true => exact .some ⟨rfl, fun _ => rfl⟩
    | false => exact .none
  result := rfl
  chained n _ := .of_closed rfl rfl n
  idle _ _ _ := rfl

/-- Scopes that forward nothing beyond the frames that were put in forward to the same frames. -/
lemma sameData (h : f.Moved p settled g)
    (outward : ∀ scope ∈ f.scope, ∀ name, ∀ target ∈ scope.redirects.get? name, target < p.base) :
    f.SameData g := by
  refine ⟨?_, h.result⟩
  have scope := h.scope
  revert scope outward
  cases f.scope <;> cases g.scope <;> intro outward scope <;> cases scope
  · exact .none
  · rename_i a b moved
    refine .some ⟨moved.bindings, fun name => ?_⟩
    rw [moved.redirects]
    cases forwards : a.redirects.get? name with
    | none => rfl
    | some target => rw [Option.map_some, p.move_of_lt (outward a rfl name target forwards)]

/-- If the scope forwards nothing beyond the frames that were put in, it is the same for one more. -/
lemma more (h : f.Moved p settled g)
    (outward : ∀ scope ∈ f.scope, ∀ name, ∀ target ∈ scope.redirects.get? name, target < p.base) :
    f.Moved p.more settled g := by
  refine { h with scope := ?_ }
  have scope := h.scope
  revert scope outward
  cases f.scope <;> cases g.scope <;> intro outward scope <;> cases scope
  · exact .none
  · rename_i a b moved
    refine .some ⟨moved.bindings, fun name => ?_⟩
    rw [moved.redirects]
    refine Option.map_congr fun target forwards => ?_
    have lt := outward a rfl name target forwards
    rw [p.move_of_lt lt, p.more.move_of_lt lt]

/-- A frame that owns no scope is like that of a call that begins. If it has left no chain open, their
chains are as settled as can be. -/
lemma begun {counted : Nat} (h : f.Moved p (some counted) g) (bare : f.scope = none) {m : Nat}
    (closed : 1 ≤ m → f.openChain = none) (call : ActiveCall) :
    f.Moved p.more (some m) (.ofCall call false) where
  scope := by
    rw [bare]
    exact .none
  result := h.idle counted rfl bare
  chained n mem := by
    cases mem
    have counted' := (h.chained counted rfl).left
    cases m with
    | zero =>
      exact ⟨counted', Frame.counted_ofCall call false, (absurd · (Nat.not_succ_le_zero _)),
        (absurd · (Nat.not_succ_le_zero _))⟩
    | succ m => exact .of_closed (closed (Nat.le_add_left _ _)) rfl _
  idle _ _ := h.idle counted rfl

end Frame.Moved

namespace ScopeStack

/-- The scope of a frame, which stands in the list of the frames where its number says. -/
lemma scopeAt_eq_frames (s : ScopeStack) (number : Nat) :
    s.scopeAt number = s.frames[number]?.bind Frame.scope := by
  rcases Nat.lt_or_ge s.depth number with beyond | le
  · have none : s.frames[number]? = none := by
      rw [List.getElem?_eq_none_iff, length_frames]
      exact beyond
    rw [scopeAt_of_depth_lt s beyond, none]
    rfl
  · rw [scopeAt_eq s le, frames_getElem? s le]

/-- The innermost frame has the highest number. -/
lemma getElem?_frames_depth (s : ScopeStack) : s.frames[s.depth]? = some s.top := by
  rw [frames_getElem? s (Nat.le_refl _), Nat.sub_self]
  rfl

/-- The frame of a call that begins gets the next number; the others keep theirs. -/
lemma getElem?_frames_push (s : ScopeStack) (f : Frame) (n : Nat) :
    (s.push f).frames[n]? = if n = s.depth + 1 then some f else s.frames[n]? := by
  have listed : (s.push f).frames = s.frames ++ [f] := List.reverse_cons
  rw [listed, List.getElem?_append, length_frames]
  split
  · rw [if_neg (by omega)]
  · split
    · rename_i last
      rw [last, Nat.sub_self]
      rfl
    · have beyond : s.frames.length ≤ n := by
        rw [length_frames]
        omega
      rw [List.getElem?_eq_none beyond, List.getElem?_eq_none]
      show 1 ≤ n - (s.depth + 1)
      omega

/-- When a call ends, the frames around it keep their numbers. -/
lemma getElem?_frames_pop (s : ScopeStack) (inside : 0 < s.depth) (n : Nat) :
    s.pop.frames[n]? = if n < s.depth then s.frames[n]? else none := by
  rw [← s.frames_pop, length_frames, if_pos (by omega), List.getElem?_dropLast, length_frames]
  rfl

/-- Only the frame that is changed is another. -/
lemma getElem?_modify_frame (frames : List Frame) (f : Frame → Frame) (i j : Nat) :
    (frames.modify i f)[j]? = if i = j then frames[j]?.map f else frames[j]? := by
  rw [List.getElem?_modify]
  split <;> simp [*]

/-- A change of one frame leaves the calls in progress. -/
lemma depth_of_frames_modify {s s' : ScopeStack} {f : Frame → Frame} {number : Nat}
    (changed : s'.frames = s.frames.modify number f) : s'.depth = s.depth := by
  have lengths := congrArg List.length changed
  rw [List.length_modify, length_frames, length_frames] at lengths
  omega

/-- The second stack has so many frames more between frames that are like those of the first, of which
so many stand behind these. -/
structure Spliced (p : Splice) (counted above : Nat) (s t : ScopeStack) : Prop where
  left : s.depth + 1 = p.base + above
  right : t.depth + 1 = p.base + p.extra + above
  behind : 1 ≤ above ∨ p.extra = 0
  frames : ∀ n, Option.Rel (Frame.Moved p (p.settled counted n)) s.frames[n]? t.frames[p.move n]?
  inserted : ∀ n, p.base ≤ n → n < p.base + p.extra → t.scopeAt n = none
  outward : ∀ n < p.base, ∀ name, ∀ target ∈ s.redirectAt? n name, target < p.base
  global : (s.scopeAt 0).isSome

namespace Spliced

variable {p : Splice} {counted above : Nat} {s t s' t' : ScopeStack}

/-- The scope of a frame before those that were put in forwards nothing beyond them. -/
lemma outward_scope (h : Spliced p counted above s t) {n : Nat} (lt : n < p.base) {f : Frame}
    (listed : s.frames[n]? = some f) :
    ∀ scope ∈ f.scope, ∀ name, ∀ target ∈ scope.redirects.get? name, target < p.base := by
  intro scope owned name target forwards
  refine h.outward n lt name target ?_
  rw [ScopeStack.redirectAt?, scopeAt_eq_frames, listed]
  exact Option.mem_bind_iff.2 ⟨scope, owned, forwards⟩

/-- The innermost frames are like each other. -/
lemma depth (h : Spliced p counted above s t) : t.depth = p.move s.depth := by
  have left := h.left
  have right := h.right
  unfold Splice.move
  rcases h.behind with behind | none <;> split <;> omega

/-- The scopes of both are the same, but for the numbers to which they forward names. -/
lemma scopeAt (h : Spliced p counted above s t) (n : Nat) :
    Option.Rel (Scope.Moved p) (s.scopeAt n) (t.scopeAt (p.move n)) := by
  have frames := h.frames n
  rw [scopeAt_eq_frames, scopeAt_eq_frames]
  revert frames
  cases s.frames[n]? <;> cases t.frames[p.move n]? <;> intro frames <;> cases frames
  · exact .none
  · rename_i moved
    exact moved.scope

/-- Frames own scopes where those that they were moved to do. -/
lemma isSome_scopeAt (h : Spliced p counted above s t) (n : Nat) :
    (t.scopeAt (p.move n)).isSome = (s.scopeAt n).isSome := by
  have scope := h.scopeAt n
  revert scope
  cases s.scopeAt n <;> cases t.scopeAt (p.move n) <;> intro scope <;> cases scope <;> rfl

/-- No frame that was put in owns a scope. -/
lemma exists_of_scopeAt (h : Spliced p counted above s t) {n : Nat} (owner : (t.scopeAt n).isSome) :
    ∃ m, p.move m = n ∧ (s.scopeAt m).isSome := by
  have other : n < p.base ∨ p.base + p.extra ≤ n := by
    by_contra between
    rw [h.inserted n (by omega) (by omega)] at owner
    cases owner
  obtain ⟨m, rfl⟩ := p.exists_move other
  exact ⟨m, rfl, h.isSome_scopeAt m ▸ owner⟩

/-- The current scope of the one is that of the other. -/
lemma current (h : Spliced p counted above s t) : t.current = p.move s.current := by
  apply Nat.le_antisymm
  · have global : (t.scopeAt 0).isSome := by
      rw [← p.move_zero, h.isSome_scopeAt]
      exact h.global
    obtain ⟨m, same, owner⟩ := h.exists_of_scopeAt (isSome_scopeAt_current global)
    rw [← same, p.move_le_move]
    exact le_current_of_scopeAt owner
  · apply le_current_of_scopeAt
    rw [h.isSome_scopeAt]
    exact isSome_scopeAt_current h.global

/-- Names are forwarded alike, to where the frames were moved. -/
lemma redirectAt? (h : Spliced p counted above s t) (n : Nat) (name : String) :
    t.redirectAt? (p.move n) name = (s.redirectAt? n name).map p.move := by
  have scope := h.scopeAt n
  rw [ScopeStack.redirectAt?, ScopeStack.redirectAt?]
  revert scope
  cases s.scopeAt n <;> cases t.scopeAt (p.move n) <;> intro scope <;> cases scope
  · rfl
  · rename_i moved
    exact moved.redirects name

/-- Names are bound alike. -/
lemma bindingAt? (h : Spliced p counted above s t) (n : Nat) (name : String) :
    t.bindingAt? (p.move n) name = s.bindingAt? n name := by
  have scope := h.scopeAt n
  rw [ScopeStack.bindingAt?, ScopeStack.bindingAt?]
  revert scope
  cases s.scopeAt n <;> cases t.scopeAt (p.move n) <;> intro scope <;> cases scope
  · rfl
  · rename_i moved
    exact congrArg (Table.get? · name) moved.bindings.symm

/-- A name lives in the same frame, where it was moved to. -/
lemma resolve (h : Spliced p counted above s t) (name : String) :
    t.resolve name = p.move (s.resolve name) := by
  show (t.redirectAt? t.current name).getD t.current =
    p.move ((s.redirectAt? s.current name).getD s.current)
  rw [h.current, h.redirectAt?]
  cases s.redirectAt? s.current name <;> rfl

/-- Variables have the same values. -/
lemma get? (h : Spliced p counted above s t) (name : String) : t.get? name = s.get? name := by
  show t.bindingAt? (t.resolve name) name = s.bindingAt? (s.resolve name) name
  rw [h.resolve, h.bindingAt?]

/-- A frame finds a name by itself where the other does. -/
lemma foundAt? (h : Spliced p counted above s t) (n : Nat) (name : String) :
    t.foundAt? (p.move n) name = (s.foundAt? n name).map p.move := by
  rw [ScopeStack.foundAt?, ScopeStack.foundAt?, h.redirectAt?, h.bindingAt?]
  cases s.redirectAt? n name with
  | some target => rfl
  | none =>
    cases (s.bindingAt? n name).isSome <;> rfl

/-- The frames that were put in are passed over. -/
lemma search_inserted (h : Spliced p counted above s t) (name : String) {more : Nat}
    (le : more ≤ p.extra) : t.search name (p.base + more) = t.search name p.base := by
  induction more with
  | zero => rfl
  | succ more ih =>
    have bare := h.inserted (p.base + more) (Nat.le_add_right _ _) (by omega)
    have unfound : t.foundAt? (p.base + more) name = none := by
      rw [ScopeStack.foundAt?, ScopeStack.redirectAt?, ScopeStack.bindingAt?, bare]
      rfl
    show (t.foundAt? (p.base + more) name).or (t.search name (p.base + more)) = _
    rw [unfound, Option.none_or, ih (by omega)]

/-- Frames are searched alike, from the same one outward. -/
lemma search (h : Spliced p counted above s t) (name : String) (n : Nat) :
    t.search name (p.move n) = (s.search name n).map p.move := by
  induction n with
  | zero =>
    rw [p.move_zero]
    rfl
  | succ n ih =>
    have next : t.search name (p.move (n + 1)) = t.search name (p.move n + 1) := by
      rcases Nat.lt_trichotomy (n + 1) p.base with lt | first | beyond
      · rw [p.move_of_lt lt, p.move_of_lt (by omega)]
      · rw [p.move_of_le (by omega), p.move_of_lt (by omega), first,
          h.search_inserted name (Nat.le_refl _)]
      · rw [p.move_of_le (by omega), p.move_of_le (by omega), Nat.add_right_comm]
    rw [next, ScopeStack.search, ScopeStack.search, h.foundAt?, ih]
    cases s.foundAt? n name <;> rfl

/-- The scopes around the current one find a name in the same frame. -/
lemma enclosing? (h : Spliced p counted above s t) (name : String) :
    t.enclosing? name = (s.enclosing? name).map p.move := by
  rw [enclosing?_eq_search, enclosing?_eq_search, h.current, h.search]

/-- The innermost frames are alike. -/
lemma top (h : Spliced p counted above s t) :
    s.top.Moved p (p.settled counted s.depth) t.top := by
  have frames := h.frames s.depth
  rw [← h.depth, getElem?_frames_depth, getElem?_frames_depth] at frames
  cases frames with
  | some moved => exact moved

/-- The frame around a call has the same chain, if that is settled. -/
lemma chainOpen_parent (h : Spliced p counted above s t)
    (settled : 3 ≤ above ∨ 2 ≤ above ∧ 2 ≤ counted) : s.parent.chainOpen = t.parent.chainOpen := by
  have left := h.left
  have right := h.right
  have inner := p.inner
  have around : ∀ s : ScopeStack, 0 < s.depth → s.frames[s.depth - 1]? = some s.parent := by
    intro s inside
    have found := parent?_frames s
    rwa [FrameList.parent?, length_frames] at found
  have number : t.depth - 1 = p.move (s.depth - 1) := by
    rw [p.move_of_le (by omega)]
    omega
  have frames := h.frames (s.depth - 1)
  rw [← number, around s (by omega), around t (by omega)] at frames
  cases frames with
  | some moved =>
    rcases Nat.eq_or_lt_of_le (show p.base ≤ s.depth - 1 by omega) with base | beyond
    · refine (moved.chained counted ?_).chainOpen (by omega)
      rw [← base, p.settled_base]
      rfl
    · refine (moved.chained 2 ?_).chainOpen (Nat.le_refl 2)
      rw [p.settled_of_lt counted beyond]
      rfl

/-- A frame is changed, and the frame that is like it, in such a way that they stay so. -/
lemma modify (h : Spliced p counted above s t) {number counted' : Nat}
    {change change' : Frame → Frame} (left : s'.frames = s.frames.modify number change)
    (right : t'.frames = t.frames.modify (p.move number) change')
    (same : number ≠ p.base → counted' = counted)
    (keeps : ∀ f g, s.frames[number]? = some f → t.frames[p.move number]? = some g →
      f.Moved p (p.settled counted number) g →
      (change f).Moved p (p.settled counted' number) (change' g))
    (owns : ∀ f, (change f).scope.isSome = f.scope.isSome)
    (outward : number < p.base → ∀ f, s.frames[number]? = some f → ∀ scope ∈ (change f).scope,
      ∀ name, ∀ target ∈ scope.redirects.get? name, target < p.base) :
    Spliced p counted' above s' t' := by
  have depth := depth_of_frames_modify left
  have depth' := depth_of_frames_modify right
  -- frame by frame: the change shows at one number, and at the number to which that moves
  refine ⟨depth ▸ h.left, depth' ▸ h.right, h.behind, fun n => ?_, fun n le lt => ?_,
    fun n lt name target => ?_, ?_⟩
  · rw [left, right, getElem?_modify_frame, getElem?_modify_frame]
    simp only [p.move_inj]
    have frames := h.frames n
    split
    · rename_i here
      subst here
      have keeps := keeps
      revert frames
      cases e : s.frames[number]? <;> cases e' : t.frames[p.move number]? <;> intro frames <;>
        cases frames
      · exact .none
      · rename_i moved
        exact .some (keeps _ _ e e' moved)
    · rename_i other
      by_cases base : number = p.base
      · rwa [p.settled_of_ne _ counted fun eq => other (base.trans eq.symm)]
      · rwa [same base]
  · have other : p.move number ≠ n := by
      unfold Splice.move
      split <;> omega
    rw [scopeAt_eq_frames, right, getElem?_modify_frame, if_neg other, ← scopeAt_eq_frames]
    exact h.inserted n le lt
  · have before := h.outward n lt name target
    rw [ScopeStack.redirectAt?, scopeAt_eq_frames] at before ⊢
    rw [left, getElem?_modify_frame]
    split
    · rename_i here
      subst here
      intro mem
      obtain ⟨scope, found, forwards⟩ := Option.bind_eq_some_iff.1 mem
      obtain ⟨changed, found, owned⟩ := Option.bind_eq_some_iff.1 found
      obtain ⟨f, listed, rfl⟩ := Option.map_eq_some_iff.1 found
      exact outward lt f listed scope owned name target forwards
    · exact before
  · have before := h.global
    rw [scopeAt_eq_frames] at before ⊢
    rw [left, getElem?_modify_frame]
    split
    · revert before
      cases s.frames[0]? with
      | none => exact id
      | some f => exact fun owned => (owns f).trans owned
    · exact before

/-- Changes that leave the scopes as they are. -/
lemma modifyKept (h : Spliced p counted above s t) {number counted' : Nat}
    {change change' : Frame → Frame} (left : s'.frames = s.frames.modify number change)
    (right : t'.frames = t.frames.modify (p.move number) change')
    (same : number ≠ p.base → counted' = counted) (scope : ∀ f, (change f).scope = f.scope)
    (keeps : ∀ f g, s.frames[number]? = some f → t.frames[p.move number]? = some g →
      f.Moved p (p.settled counted number) g →
      (change f).Moved p (p.settled counted' number) (change' g)) :
    Spliced p counted' above s' t' := by
  refine h.modify left right same keeps (fun f => congrArg Option.isSome (scope f)) ?_
  intro lt f listed own mem name target forwards
  rw [scope] at mem
  refine h.outward number lt name target ?_
  rw [ScopeStack.redirectAt?, scopeAt_eq_frames, listed, Option.bind_some, Option.mem_def.1 mem]
  exact forwards

/-- A change of a scope is one of its frame in the list. -/
lemma frames_modifyScope (s : ScopeStack) (number : Nat) (f : Scope → Scope) :
    (s.modifyScope number f).frames = s.frames.modify number (Frame.mapScope f) := by
  unfold modifyScope
  split
  · rename_i le
    exact frames_modifyAbove s _ le
  · rw [List.modify_eq_self]
    rw [length_frames]
    omega

/-- A scope is changed, and the scope that is like it, in such a way that they stay so. -/
lemma modifyScope (h : Spliced p counted above s t) (number : Nat) {change change' : Scope → Scope}
    (keeps : ∀ {a b}, Scope.Moved p a b → Scope.Moved p (change a) (change' b))
    (outward : number < p.base → ∀ scope ∈ s.scopeAt number,
      ∀ name, ∀ target ∈ (change scope).redirects.get? name, target < p.base) :
    Spliced p counted above (s.modifyScope number change)
      (t.modifyScope (p.move number) change') := by
  refine h.modify (frames_modifyScope s number change) (frames_modifyScope t _ change')
    (fun _ => rfl) (fun f g _ _ moved => ⟨?_, moved.result, ?_, ?_⟩) (fun f => by simp [Frame.mapScope])
    fun lt f listed scope mem => ?_
  · have scope := moved.scope
    show Option.Rel _ (f.scope.map change) (g.scope.map change')
    revert scope
    cases f.scope <;> cases g.scope <;> intro scope <;> cases scope
    · exact .none
    · rename_i moved
      exact .some (keeps moved)
  · exact fun n mem => ⟨(moved.chained n mem).left, (moved.chained n mem).right,
      (moved.chained n mem).opens, (moved.chained n mem).chainOpen⟩
  · intro n mem bare
    exact moved.idle n mem (Option.map_eq_none_iff.1 bare)
  · obtain ⟨before, owned, rfl⟩ := Option.map_eq_some_iff.1 (Option.mem_def.1 mem)
    refine outward lt before ?_
    rw [scopeAt_eq_frames, listed]
    exact owned

/-- Both may assign a variable. -/
lemma set (h : Spliced p counted above s t) (name value : String) :
    Spliced p counted above (s.set name value) (t.set name value) := by
  rw [ScopeStack.set, ScopeStack.set, h.resolve]
  refine h.modifyScope _ (fun moved => ⟨?_, moved.redirects⟩) fun lt scope owned other target forwards => ?_
  · exact congrArg (Table.insert · name value) moved.bindings
  · exact h.outward _ lt other target (Option.bind_eq_some_iff.2 ⟨scope, owned, forwards⟩)

/-- Both may take a variable away. -/
lemma unset (h : Spliced p counted above s t) (name : String) :
    Spliced p counted above (s.unset name) (t.unset name) := by
  rw [ScopeStack.unset, ScopeStack.unset, h.resolve]
  refine h.modifyScope _ (fun moved => ⟨?_, moved.redirects⟩) fun lt scope owned other target forwards => ?_
  · exact congrArg (Table.erase · name) moved.bindings
  · exact h.outward _ lt other target (Option.bind_eq_some_iff.2 ⟨scope, owned, forwards⟩)

/-- Both may bind a variable of the current scope. -/
lemma bindLocal (h : Spliced p counted above s t) (name value : String) :
    Spliced p counted above (s.bindLocal name value) (t.bindLocal name value) := by
  rw [ScopeStack.bindLocal, ScopeStack.bindLocal, h.current]
  refine h.modifyScope _ (fun moved => ⟨?_, fun other => ?_⟩) fun lt scope owned other target forwards => ?_
  · exact congrArg (Table.insert · name value) moved.bindings
  · rw [Table.get?_erase, Table.get?_erase, moved.redirects]
    split <;> rfl
  · change (scope.redirects.erase name).get? other = some target at forwards
    rw [Table.get?_erase] at forwards
    split at forwards
    · cases forwards
    · exact h.outward _ lt other target (Option.bind_eq_some_iff.2 ⟨scope, owned, forwards⟩)

/-- A name is forwarded to frames that are like each other, which stand outward with the scope. -/
lemma redirect (h : Spliced p counted above s t) (name : String) {target : Nat}
    (outward : s.current < p.base → target < p.base) :
    Spliced p counted above (s.redirect name target) (t.redirect name (p.move target)) := by
  rw [ScopeStack.redirect, ScopeStack.redirect, h.current]
  refine h.modifyScope _ (fun moved => ⟨moved.bindings, fun other => ?_⟩)
    fun lt scope owned other found forwards => ?_
  · rw [Table.get?_insert, Table.get?_insert, moved.redirects]
    split <;> rfl
  · change (scope.redirects.insert name target).get? other = some found at forwards
    rw [Table.get?_insert] at forwards
    split at forwards
    · cases forwards
      exact outward lt
    · exact h.outward _ lt other found (Option.bind_eq_some_iff.2 ⟨scope, owned, forwards⟩)

/-- Both may make a name global. -/
lemma declareGlobal (h : Spliced p counted above s t) (name : String) :
    Spliced p counted above (s.declareGlobal name) (t.declareGlobal name) := by
  have global : t.current = 0 ↔ s.current = 0 := by
    rw [h.current, ← p.move_zero, p.move_inj, p.move_zero]
  rw [ScopeStack.declareGlobal, ScopeStack.declareGlobal]
  simp only [global]
  split
  · exact h
  · have forwarded : Spliced p counted above (s.redirect name 0) (t.redirect name (p.move 0)) :=
      h.redirect name fun _ => p.inner
    rwa [p.move_zero] at forwarded

/-- Both may make a name nonlocal. -/
lemma declareNonlocal (h : Spliced p counted above s t) (name : String) :
    Spliced p counted above ((s.declareNonlocal? name).getD s) ((t.declareNonlocal? name).getD t) := by
  rw [ScopeStack.declareNonlocal?, ScopeStack.declareNonlocal?, h.enclosing?]
  cases found : s.enclosing? name with
  | none => exact h
  | some target =>
    refine h.redirect name fun lt => ?_
    obtain ⟨number, below, forwarded | ⟨-, -, rfl⟩⟩ := exists_of_enclosing? found
    · exact h.outward number (by omega) name target forwarded
    · omega

/-- Both may bind the parameters of a definition. -/
lemma bindParams (h : Spliced p counted above s t) (definition : Definition) (args : List String) :
    Spliced p counted above (Interpreter.bindParams definition args s)
      (Interpreter.bindParams definition args t) :=
  Interpreter.bindParams_induction₂ (fun _ _ name value spliced => spliced.bindLocal name value) h
    definition args

/-- The innermost frame is the last in the list. -/
lemma frames_modifyTop (s : ScopeStack) (f : Frame → Frame) :
    (s.modifyTop f).frames = s.frames.modify s.depth f := by
  rw [← frames_modifyAbove s f (Nat.le_refl _), Nat.sub_self]
  rfl

/-- The frame around a call is the one before the last in the list. -/
lemma frames_modifyParent (s : ScopeStack) (f : Frame → Frame) :
    (s.modifyParent f).frames = s.frames.modify (s.depth - 1) f := by
  rw [modifyParent_eq, ← frames_modifyAbove s f (Nat.sub_le _ _)]
  congr 2
  omega

/-- The innermost frame is where it was moved to. -/
lemma frames_top (h : Spliced p counted above s t) (f : Frame → Frame) :
    (t.modifyTop f).frames = t.frames.modify (p.move s.depth) f := by
  rw [frames_modifyTop, h.depth]

/-- A statement is counted in the innermost frames. Where these stand right behind the frames that
were put in, this settles their else-chains further. -/
lemma countStatement (h : Spliced p counted above s t) :
    Spliced p (if above = 1 then counted + 1 else counted) above
      (s.modifyTop Frame.countStatement) (t.modifyTop Frame.countStatement) := by
  have left := h.left
  refine h.modifyKept (frames_modifyTop s _) (h.frames_top _) (fun other => ?_)
    (fun _ => rfl) fun f g _ _ moved => ⟨moved.scope, moved.result, fun n mem => ?_, fun n mem => ?_⟩
  · rw [if_neg (by omega)]
  · by_cases base : s.depth = p.base
    · rw [base, p.settled_base, if_pos (by omega)] at mem
      cases mem
      refine (moved.chained counted ?_).countStatement
      rw [base, p.settled_base]
      rfl
    · rw [p.settled_of_ne _ counted base] at mem
      exact (moved.chained n mem).countStatement.mono (Nat.le_succ n)
  · by_cases base : s.depth = p.base
    · refine moved.idle counted ?_
      rw [base, p.settled_base]
      rfl
    · rw [p.settled_of_ne _ counted base] at mem
      exact moved.idle n mem

/-- A chain is opened or closed around the innermost calls. -/
lemma setChain (h : Spliced p counted above s t) (around : 2 ≤ above ∨ p.extra = 0)
    (isOpen : Bool) :
    Spliced p counted above (s.modifyParent (·.setChain isOpen))
      (t.modifyParent (·.setChain isOpen)) := by
  have left := h.left
  have right := h.right
  have inner := p.inner
  have number : t.depth - 1 = p.move (s.depth - 1) := by
    unfold Splice.move
    rcases around with inside | none <;> split <;> omega
  have right : (t.modifyParent (·.setChain isOpen)).frames =
      t.frames.modify (p.move (s.depth - 1)) (·.setChain isOpen) := by
    rw [frames_modifyParent, number]
  refine h.modifyKept (frames_modifyParent s _) right (fun _ => rfl)
    (fun _ => rfl) fun f g _ _ moved => ⟨moved.scope, moved.result, fun n mem => ?_, moved.idle⟩
  exact .setChain f g n isOpen

/-- A result is handed to the innermost calls of definitions. -/
lemma setResult (h : Spliced p counted above s t) (value : String) :
    Option.Rel (Spliced p counted above) (s.setResult? value) (t.setResult? value) := by
  have inside : 0 < t.current ↔ 0 < s.current := by
    have zero := p.move_zero
    have same := p.move_le_move (m := s.current) (n := 0)
    rw [h.current]
    omega
  rw [ScopeStack.setResult?, ScopeStack.setResult?, definitionAbove?_eq, definitionAbove?_eq]
  simp only [inside]
  split
  · have owner := isSome_scopeAt_current h.global
    have right : ∀ change : Frame → Frame, (t.modifyAbove change (t.depth - t.current)).frames =
        t.frames.modify (p.move s.current) change := by
      intro change
      rw [frames_modifyAbove t change t.current_le_depth, h.current]
    refine .some (h.modifyKept (frames_modifyAbove s _ s.current_le_depth) (right _) (fun _ => rfl)
      (fun _ => rfl) fun f g listed _ moved => ⟨moved.scope, rfl, fun n mem => ?_, fun n mem bare => ?_⟩)
    · exact ⟨(moved.chained n mem).left, (moved.chained n mem).right, (moved.chained n mem).opens,
        (moved.chained n mem).chainOpen⟩
    · -- the frame that gets the result owns the current scope
      rw [scopeAt_eq_frames, listed] at owner
      change f.scope.isSome = true at owner
      rw [show f.scope = none from bare] at owner
      cases owner
  · exact .none

/-- Both may take their result. -/
lemma takeResult (h : Spliced p counted above s t) :
    Spliced p counted above (s.modifyTop fun f => { f with result := none })
      (t.modifyTop fun f => { f with result := none }) := by
  refine h.modifyKept (frames_modifyTop s _) (h.frames_top _) (fun _ => rfl)
    (fun _ => rfl) fun f g _ _ moved => ⟨moved.scope, rfl, fun n mem => ?_, fun _ _ _ => rfl⟩
  exact ⟨(moved.chained n mem).left, (moved.chained n mem).right, (moved.chained n mem).opens,
    (moved.chained n mem).chainOpen⟩

/-- Fewer marks may be asked for. -/
lemma mono {m : Nat} (h : Spliced p counted above s t) (le : m ≤ counted) :
    Spliced p m above s t := by
  refine { h with frames := fun n => ?_ }
  have frames := h.frames n
  revert frames
  cases s.frames[n]? <;> cases t.frames[p.move n]? <;> intro frames <;> cases frames
  · exact .none
  · rename_i f g moved
    by_cases base : n = p.base
    · subst base
      rw [p.settled_base] at moved ⊢
      refine .some ⟨moved.scope, moved.result, fun n mem => ?_, fun n mem => moved.idle _ rfl⟩
      cases mem
      exact (moved.chained counted rfl).mono le
    · rw [p.settled_of_ne _ counted base]
      exact .some moved

/-- Calls begin whose frames are like each other. -/
lemma push (h : Spliced p counted above s t) (call call' : ActiveCall) (owns : Bool) :
    Spliced p counted (above + 1) (s.push (.ofCall call owns)) (t.push (.ofCall call' owns)) := by
  have left := h.left
  have right := h.right
  have first : t.depth + 1 = p.move (s.depth + 1) := by
    rw [p.move_of_le (by omega)]
    omega
  refine ⟨?_, ?_, .inl (Nat.le_add_left _ _), fun n => ?_, fun n le lt => ?_, ?_, ?_⟩
  · rw [depth_push]
    omega
  · rw [depth_push]
    omega
  · rw [getElem?_frames_push, getElem?_frames_push]
    simp only [first, p.move_inj]
    split
    · exact .some (.ofCall _ call call' owns)
    · exact h.frames n
  · rw [scopeAt_push, if_neg (by omega)]
    exact h.inserted n le lt
  · intro n lt name
    rw [ScopeStack.redirectAt?, scopeAt_push, if_neg (by omega)]
    exact h.outward n lt name
  · rw [scopeAt_push, if_neg (Nat.succ_ne_zero _).symm]
    exact h.global

/-- Calls end whose frames are like each other. -/
lemma pop (h : Spliced p counted (above + 1) s t) (behind : 1 ≤ above ∨ p.extra = 0) :
    Spliced p counted above s.pop t.pop := by
  have left := h.left
  have right := h.right
  have inner := p.inner
  have last : t.depth = p.move s.depth := by
    rw [p.move_of_le (by omega)]
    omega
  refine ⟨?_, ?_, behind, fun n => ?_, fun n le lt => ?_, ?_, ?_⟩
  · rw [depth_pop]
    omega
  · rw [depth_pop]
    omega
  · have lower : p.move n < p.move s.depth ↔ n < s.depth := by
      have le := p.move_le_move (m := s.depth) (n := n)
      omega
    rw [getElem?_frames_pop s (by omega), getElem?_frames_pop t (by omega), last]
    simp only [lower]
    split
    · exact h.frames n
    · exact .none
  · rw [scopeAt_pop, h.inserted n le lt]
    split <;> rfl
  · intro n lt name target forwards
    refine h.outward n lt name target ?_
    rw [ScopeStack.redirectAt?, scopeAt_pop] at forwards
    split at forwards
    · exact forwards
    · cases forwards
  · rw [scopeAt_pop, if_pos (Nat.zero_le _)]
    exact h.global

/-- A stack is like itself, with no frames put in. -/
lemma refl (h : s.WellRedirected) (counted : Nat) :
    Spliced ⟨s.depth + 1, 0, Nat.succ_pos _⟩ counted 0 s s := by
  have still : ∀ n, Splice.move ⟨s.depth + 1, 0, Nat.succ_pos _⟩ n = n := by
    intro n
    unfold Splice.move
    split <;> rfl
  refine ⟨rfl, rfl, .inr rfl, fun n => ?_, fun n le lt => ?_, fun n lt name target forwards => ?_,
    h.isSome_scopeAt_zero⟩
  · rw [still]
    cases e : s.frames[n]? with
    | none => exact .none
    | some f =>
      have lt : n < s.depth + 1 := by
        rw [← length_frames]
        exact (List.getElem?_eq_some_iff.1 e).1
      have unknown : Splice.settled ⟨s.depth + 1, 0, Nat.succ_pos _⟩ counted n = none := if_pos lt
      rw [unknown]
      refine .some ⟨?_, rfl, nofun, nofun⟩
      cases f.scope with
      | none => exact .none
      | some scope =>
        refine .some ⟨rfl, fun name => ?_⟩
        cases scope.redirects.get? name with
        | none => rfl
        | some target => rw [Option.map_some, still]
  · exact absurd lt (Nat.not_lt.2 le)
  · exact Nat.lt_trans (h.outward n name target forwards).1 lt

/-- The chain around the second of two calls that have just begun is not looked at any more. -/
lemma setChainRight (h : Spliced p counted 1 s t) (alone : p.extra = 0) (isOpen : Bool) :
    Spliced p counted 1 s (t.modifyParent (·.setChain isOpen)) := by
  have left := h.left
  have right := h.right
  have inner := p.inner
  have outer : t.depth - 1 = p.move (s.depth - 1) := by
    rw [p.move_of_lt (by omega)]
    omega
  have right : (t.modifyParent (·.setChain isOpen)).frames =
      t.frames.modify (p.move (s.depth - 1)) (·.setChain isOpen) := by
    rw [frames_modifyParent, outer]
  refine h.modifyKept (List.modify_id _ _).symm right (fun _ => rfl) (fun _ => rfl)
    fun f g _ _ moved => ?_
  have unknown : p.settled counted (s.depth - 1) = none := if_pos (by omega)
  rw [unknown] at moved ⊢
  exact ⟨moved.scope, moved.result, nofun, nofun⟩

/-- A statement is counted in the second of two frames alone. If neither has left a chain open, these
are as settled as can be. -/
lemma countRight (h : Spliced p counted 1 s t) {m : Nat}
    (closed : 1 ≤ m → s.top.openChain = none ∧ t.top.openChain = none) :
    Spliced p m 1 s (t.modifyTop Frame.countStatement) := by
  have base : s.depth = p.base := Nat.succ.inj h.left
  refine h.modifyKept (List.modify_id _ _).symm (h.frames_top _)
    (fun other => absurd base other) (fun _ => rfl) fun f g listed listed' moved => ?_
  rw [getElem?_frames_depth] at listed
  rw [← h.depth, getElem?_frames_depth] at listed'
  cases listed
  cases listed'
  rw [base, p.settled_base] at moved ⊢
  refine ⟨moved.scope, moved.result, fun n mem => ?_, fun n mem => moved.idle _ rfl⟩
  cases mem
  have behind := (moved.chained counted rfl).countRight
  cases m with
  | zero => exact behind
  | succ m =>
    obtain ⟨left, right⟩ := closed (Nat.le_add_left _ _)
    have right : t.top.countStatement.openChain = none := right
    exact .of_closed left right _

/-- One more frame can be put in behind the second of two frames that own no scope. If the first has
left no chain open, the chains of this and of the new one are as settled as can be. -/
lemma insert (h : Spliced p counted 1 s t) (bare : s.top.scope = none) {m : Nat}
    (closed : 1 ≤ m → s.top.openChain = none) (call : ActiveCall) :
    Spliced p.more m 1 s (t.push (.ofCall call false)) := by
  have left := h.left
  have right := h.right
  have base : s.depth = p.base := Nat.succ.inj left
  have moved := h.top
  refine ⟨left, ?_, .inl (Nat.le_refl 1), fun n => ?_, fun n le lt => ?_, h.outward, h.global⟩
  · rw [depth_push, p.base_more, p.extra_more]
    omega
  · rw [getElem?_frames_push]
    rcases Nat.lt_trichotomy n p.base with lt | rfl | beyond
    · have unknown : p.more.settled m n = p.settled counted n := (if_pos lt).trans (if_pos lt).symm
      have frames := h.frames n
      rw [p.move_of_lt lt] at frames
      rw [p.more.move_of_lt lt, if_neg (by omega), unknown]
      revert frames
      cases listed : s.frames[n]? <;> cases t.frames[n]? <;> intro frames <;> cases frames
      · exact .none
      · rename_i f g moved
        exact .some (moved.more (h.outward_scope lt listed))
    · have first : p.more.move p.base = p.base + (p.extra + 1) := p.more.move_of_le (Nat.le_refl _)
      have settled : p.more.settled m p.base = some m := p.more.settled_base m
      rw [base, p.settled_base] at moved
      rw [first, if_pos (by omega), settled, ← base, getElem?_frames_depth]
      exact .some (moved.begun bare closed call)
    · rw [p.more.move_of_le (Nat.le_of_lt beyond), p.extra_more, if_neg (by omega),
        List.getElem?_eq_none, List.getElem?_eq_none]
      · exact .none
      · rw [length_frames]
        omega
      · rw [length_frames]
        omega
  · rw [p.base_more] at le
    rw [p.base_more, p.extra_more] at lt
    rw [scopeAt_push, if_neg (by omega)]
    rcases Nat.lt_or_ge n (p.base + p.extra) with inserted | last
    · exact h.inserted n le inserted
    · -- the frame behind which the new one is put in is like the first, which owns no scope
      have owner := h.isSome_scopeAt p.base
      have none : s.scopeAt p.base = none := by
        rw [scopeAt_eq_frames, ← base, getElem?_frames_depth]
        exact bare
      rw [none, p.move_of_le (Nat.le_refl _)] at owner
      have here : n = p.base + p.extra := by omega
      rw [here]
      exact Option.isNone_iff_eq_none.1 (by simpa using owner)

/-- Before the frames that were put in, the frames hold the same. -/
lemma sameData (h : Spliced p counted above s t) {n : Nat} (lt : n < p.base) :
    Option.Rel Frame.SameData s.frames[n]? t.frames[n]? := by
  have frames := h.frames n
  rw [p.move_of_lt lt] at frames
  revert frames
  cases listed : s.frames[n]? <;> cases t.frames[n]? <;> intro frames <;> cases frames
  · exact .none
  · rename_i f g moved
    exact .some (moved.sameData (h.outward_scope lt listed))

end Spliced

end ScopeStack

/-- The contexts are the same but for their stacks, which are spliced, and for the steps taken. -/
structure Context.Spliced (p : Splice) (counted above : Nat) (c c' : Context) : Prop where
  scopes : c.scopes.Spliced p counted above c'.scopes
  definitions : c.definitions = c'.definitions
  flow : c.flow = c'.flow

namespace Context.Spliced

variable {p : Splice} {counted above : Nat} {c c' : Context}

/-- Contexts with frames put in look alike. -/
lemma looksLike (h : c.Spliced p counted above c') : c.LooksLike c' where
  get? name := (h.scopes.get? name).symm
  definition? kind name := by
    cases kind with
    | control => rfl
    | _ => exact congrArg (Table.get? · _) h.definitions
  flow := h.flow
  result := h.scopes.top.result
  enclosing? name := by
    rw [h.scopes.enclosing?, Option.isSome_map]
  definitionAbove? := by
    have result := h.scopes.setResult ""
    rw [ScopeStack.setResult?, ScopeStack.setResult?] at result
    revert result
    cases c.scopes.definitionAbove? <;> cases c'.scopes.definitionAbove? <;> intro result <;>
      cases result <;> rfl

/-- Handlers make the same changes to both contexts. -/
lemma update (h : c.Spliced p counted above c') (around : 2 ≤ above ∨ p.extra = 0)
    (change : Update) : (c.update change).Spliced p counted above (c'.update change) := by
  cases change with
  | set name value => exact ⟨h.scopes.set name value, h.definitions, h.flow⟩
  | unset name => exact ⟨h.scopes.unset name, h.definitions, h.flow⟩
  | declareGlobal name => exact ⟨h.scopes.declareGlobal name, h.definitions, h.flow⟩
  | declareNonlocal name => exact ⟨h.scopes.declareNonlocal name, h.definitions, h.flow⟩
  | setChain isOpen => exact ⟨h.scopes.setChain around isOpen, h.definitions, h.flow⟩
  | leave result =>
    have handed := h.scopes.setResult result
    rw [Context.update, Context.update]
    revert handed
    cases c.scopes.setResult? result <;> cases c'.scopes.setResult? result <;> intro handed <;>
      cases handed
    · exact h
    · rename_i spliced
      exact ⟨spliced, h.definitions, rfl⟩
  | stop => exact ⟨h.scopes, h.definitions, rfl⟩
  | define definition =>
    exact ⟨h.scopes, congrArg (Table.insert · _ definition) h.definitions, h.flow⟩

/-- The way into and out of a definition is the same in both contexts. -/
lemma passage {change : Context → Context} (passage : Evaluation.Passage change)
    (h : c.Spliced p counted above c') : (change c).Spliced p counted above (change c') := by
  cases passage with
  | bindParams definition args =>
    exact ⟨h.scopes.bindParams definition args, h.definitions, h.flow⟩
  | arrive =>
    rw [Interpreter.arrive, Interpreter.arrive, h.flow]
    split
    · exact ⟨h.scopes, h.definitions, rfl⟩
    · exact h
  | takeResult => exact ⟨h.scopes.takeResult, h.definitions, h.flow⟩

end Context.Spliced

end Scriptlet
