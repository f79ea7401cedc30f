import Mathlib.Logic.Function.Iterate
import Scriptlet.Proofs.Scope.Redirects

/-!
# Nonlocal names

What a scope sees of a name is the value it has where the scope forwards it, or in the scope itself.
A name is declared nonlocal where the nearest scope around the current one has it or forwards it
(`enclosing?_eq_search`). If no scope forwards the name to a frame that has no value for it, that is
the nearest scope that sees a value (`nonlocal_reaches_nearest`).
-/

namespace Scriptlet

namespace ScopeStack

/-- Where the scope of a frame finds a name by itself: where it forwards it, or in itself. -/
def foundAt? (s : ScopeStack) (number : Nat) (name : String) : Option Nat :=
  (s.redirectAt? number name).or (if (s.bindingAt? number name).isSome then some number else none)

/-- The value that the scope of a frame sees for a name: the one where it forwards it, or its own. -/
def seenAt? (s : ScopeStack) (number : Nat) (name : String) : Option String :=
  s.bindingAt? ((s.redirectAt? number name).getD number) name

/-- Where the nearest of the scopes with numbers below this one finds a name. -/
def search (s : ScopeStack) (name : String) : Nat → Option Nat
  | 0 => none
  | number + 1 => (s.foundAt? number name).or (s.search name number)

/-- The current scope sees what the stack says of a name. -/
lemma get?_eq_seenAt? (s : ScopeStack) (name : String) : s.get? name = s.seenAt? s.current name :=
  rfl

variable {s : ScopeStack} {name : String}

/-- A scope that finds a name sees it where it finds it. -/
lemma home_of_foundAt? {number target : Nat} (found : s.foundAt? number name = some target) :
    (s.redirectAt? number name).getD number = target := by
  rw [foundAt?] at found
  cases forwarded : s.redirectAt? number name with
  | some other =>
    rw [forwarded] at found
    exact Option.some.inj found
  | none =>
    rw [forwarded, Option.none_or] at found
    split at found
    · exact Option.some.inj found
    · cases found

/-- The value of a name that a scope sees is where it finds the name. -/
lemma seenAt?_of_foundAt? {number target : Nat} (h : s.foundAt? number name = some target) :
    s.seenAt? number name = s.bindingAt? target name := by
  rw [seenAt?, home_of_foundAt? h]

/-- A scope that does not find a name sees no value for it. -/
lemma seenAt?_of_foundAt?_none {number : Nat} (h : s.foundAt? number name = none) :
    s.seenAt? number name = none := by
  obtain ⟨forwarded, unbound⟩ := Option.or_eq_none_iff.1 h
  rw [seenAt?, forwarded, Option.getD_none]
  split at unbound
  · cases unbound
  · rename_i h
    exact Option.not_isSome_iff_eq_none.1 h

/-- A frame finds a name by itself where its scope does. -/
lemma finds?_eq_foundAt? {frame : Frame} {number : Nat}
    (h : s.scopeAt number = frame.scope) : frame.finds? number name = s.foundAt? number name := by
  rw [foundAt?, redirectAt?, bindingAt?, h, Frame.finds?]
  cases frame.scope <;> rfl

/-- The scopes around the current one are searched from the nearest to the global one. -/
lemma findOutward_eq_search {number : Nat} (le : number ≤ s.depth + 1) :
    findOutward name (s.toList.drop (s.depth + 1 - number)) = s.search name number := by
  induction number with
  | zero =>
    have all : s.toList.drop (s.depth + 1 - 0) = [] := List.drop_eq_nil_of_le (Nat.le_refl _)
    rw [all]
    rfl
  | succ number ih =>
    have lt : s.depth + 1 - (number + 1) < s.toList.length := by
      rw [length_toList]
      omega
    have next : s.depth + 1 - (number + 1) + 1 = s.depth + 1 - number := by omega
    have height : (s.toList.drop (s.depth + 1 - number)).length = number := by
      rw [List.length_drop, length_toList]
      omega
    have scope : s.scopeAt number = (s.toList[s.depth + 1 - (number + 1)]).scope := by
      have position : s.depth - number = s.depth + 1 - (number + 1) := by omega
      rw [scopeAt_eq s (by omega), position, List.getElem?_eq_getElem lt]
      rfl
    rw [List.drop_eq_getElem_cons lt, next, findOutward, height, finds?_eq_foundAt? scope,
      ih (by omega)]
    rfl

/-- The search for a nonlocal name looks at the frames below the current one, innermost first. -/
lemma enclosing?_eq_search (s : ScopeStack) (name : String) :
    s.enclosing? name = s.search name s.current := by
  have le := s.current_le_depth
  have position : s.depth - s.current + 1 = s.depth + 1 - s.current := by omega
  rw [enclosing?, position]
  exact findOutward_eq_search (by omega)

/-- The search finds nothing if no frame that it looks at does. -/
lemma search_eq_none_iff {last : Nat} :
    s.search name last = none ↔ ∀ number < last, s.foundAt? number name = none := by
  induction last with
  | zero => simp [search]
  | succ last ih =>
    rw [search, Option.or_eq_none_iff, ih]
    constructor
    · rintro ⟨nearest, others⟩ number lt
      rcases Nat.lt_succ_iff_lt_or_eq.1 lt with below | rfl
      · exact others number below
      · exact nearest
    · intro none
      exact ⟨none last (Nat.lt_succ_self _), fun number lt => none number (Nat.lt_succ_of_lt lt)⟩

/-- What a search finds, the nearest scope finds that finds anything. -/
lemma search_eq_some {last target : Nat} (h : s.search name last = some target) :
    ∃ number < last, s.foundAt? number name = some target ∧
      ∀ between, number < between → between < last → s.foundAt? between name = none := by
  induction last with
  | zero => cases h
  | succ last ih =>
    rw [search] at h
    cases nearest : s.foundAt? last name with
    | some found =>
      rw [nearest, Option.some_or] at h
      cases h
      refine ⟨last, Nat.lt_succ_self _, nearest, fun between above below => ?_⟩
      omega
    | none =>
      rw [nearest, Option.none_or] at h
      obtain ⟨number, lt, found, closest⟩ := ih h
      refine ⟨number, Nat.lt_succ_of_lt lt, found, fun between above below => ?_⟩
      rcases Nat.lt_succ_iff_lt_or_eq.1 below with below | rfl
      · exact closest between above below
      · exact nearest

/-- Of a name that was forwarded, the current scope sees what is where it was forwarded to. -/
lemma redirectAt?_redirect (owner : (s.scopeAt s.current).isSome) (target : Nat) :
    (s.redirect name target).redirectAt? s.current name = some target := by
  obtain ⟨scope, owned⟩ := Option.isSome_iff_exists.1 owner
  rw [redirectAt?, redirect, scopeAt_modifyScope, if_pos rfl, owned]
  simp [Table.get?_insert]

/-- Forwarding a name changes no binding. -/
lemma bindingAt?_redirect (s : ScopeStack) (name : String) (target number : Nat) (other : String) :
    (s.redirect name target).bindingAt? number other = s.bindingAt? number other := by
  rw [bindingAt?, bindingAt?, redirect, scopeAt_modifyScope]
  split
  · cases s.scopeAt number <;> rfl
  · rfl

/-- A scope is not above the current one. -/
lemma le_current_of_scopeAt {number : Nat} (h : (s.scopeAt number).isSome) : number ≤ s.current := by
  rcases Nat.lt_or_ge s.current number with above | le
  · rw [scopeAt_of_current_lt above] at h
    cases h
  · exact le

/-- Whether an operation says anew where a name of the current scope leads. -/
def Operation.Redeclares (name : String) : Operation → Prop
  | bindLocal other _ | declareGlobal other | declareNonlocal other => other = name
  | _ => False

/-- A change of a scope keeps where a name leads if it keeps that in the scope. -/
lemma redirectAt?_modifyScope (s : ScopeStack) {number : Nat} {f : Scope → Scope} {name : String}
    {i : Nat} (same : i = number → ∀ scope, (f scope).redirects.get? name = scope.redirects.get? name) :
    (s.modifyScope number f).redirectAt? i name = s.redirectAt? i name := by
  rw [redirectAt?, redirectAt?, scopeAt_modifyScope]
  split
  · rename_i e
    cases s.scopeAt i with
    | none => rfl
    | some scope => exact same e scope
  · rfl

/-- A redirect of a name in the current scope keeps all others. -/
lemma redirectAt?_redirect_of_ne {target i : Nat} {other : String}
    (h : i = s.current → other ≠ name) :
    (s.redirect other target).redirectAt? i name = s.redirectAt? i name := by
  refine s.redirectAt?_modifyScope fun here scope => ?_
  show (scope.redirects.insert other target).get? name = _
  rw [Table.get?_insert, if_neg fun same => h here same.symm]

/-- No operation changes where a scope that is still there forwards a name, unless it says so of the
current scope. -/
lemma redirectAt?_apply {operation : Operation} {number : Nat}
    (there : number ≤ (operation.apply s).depth)
    (keeps : number = s.current → ¬ operation.Redeclares name) :
    (operation.apply s).redirectAt? number name = s.redirectAt? number name := by
  -- a frame that is entered or left is none that is still there
  cases operation with
  | push call owns =>
    show (s.push (.ofCall call owns)).redirectAt? number name = _
    rw [redirectAt?, scopeAt_push]
    split
    · rename_i new
      rw [redirectAt?, new, scopeAt_of_depth_lt s (Nat.lt_succ_self _)]
      cases owns <;> rfl
    · rfl
  | pop =>
    change number ≤ s.pop.depth at there
    rw [depth_pop] at there
    show s.pop.redirectAt? number name = _
    rw [redirectAt?, scopeAt_pop, if_pos there, redirectAt?]
  | unwind =>
    change number ≤ s.unwind.depth at there
    rw [depth_unwind] at there
    show s.unwind.redirectAt? number name = _
    rw [redirectAt?, scopeAt_unwind, if_pos there, redirectAt?]
  | set other value => exact s.redirectAt?_modifyScope fun _ _ => rfl
  | unset other => exact s.redirectAt?_modifyScope fun _ _ => rfl
  | bindLocal other value =>
    refine s.redirectAt?_modifyScope fun here scope => ?_
    show (scope.redirects.erase other).get? name = _
    rw [Table.get?_erase, if_neg fun same => keeps here same.symm]
  | declareGlobal other =>
    show (s.declareGlobal other).redirectAt? number name = _
    rw [ScopeStack.declareGlobal]
    split
    · rfl
    · exact redirectAt?_redirect_of_ne keeps
  | declareNonlocal other =>
    show ((s.declareNonlocal? other).getD s).redirectAt? number name = _
    cases declared : s.declareNonlocal? other with
    | none => rfl
    | some s' =>
      obtain ⟨target, -, rfl⟩ := Option.map_eq_some_iff.1 declared
      exact redirectAt?_redirect_of_ne keeps

/-- The operations leave the frame with this number where it is, and none of them says anew where its
scope leads the name. -/
def Undisturbed (number : Nat) (name : String) : ScopeStack → List Operation → Prop
  | _, [] => True
  | s, operation :: rest =>
    (s.current = number → ¬ operation.Redeclares name) ∧ number ≤ (operation.apply s).depth ∧
      Undisturbed number name (operation.apply s) rest

/-- As long as a scope is undisturbed, it forwards a name as it did, and so do the scopes below it. -/
lemma redirectAt?_of_undisturbed {inner target : Nat} {later : List Operation}
    (forwards : s.redirectAt? inner name = some target) (h : Undisturbed inner name s later) :
    ∀ number ≤ inner,
      (later.foldl Operation.apply s).redirectAt? number name = s.redirectAt? number name := by
  induction later generalizing s with
  | nil => exact fun _ _ => rfl
  | cons operation rest ih =>
    obtain ⟨keeps, there, others⟩ := h
    have step : ∀ number ≤ inner,
        (operation.apply s).redirectAt? number name = s.redirectAt? number name := by
      intro number le
      refine redirectAt?_apply (Nat.le_trans le there) fun here => keeps ?_
      -- the frame that forwards the name owns a scope, so the current one is not below it
      have not_below := le_current_of_scopeAt (isSome_scopeAt_of_redirectAt? forwards)
      omega
    intro number le
    rw [List.foldl_cons, ih ((step inner (Nat.le_refl _)).trans forwards) others number le, step number le]

/-- The frames that are left when calls are left are what they were. -/
lemma scopeAt_iterate_pop (s : ScopeStack) (calls : Nat) {number : Nat}
    (there : number ≤ (pop^[calls] s).depth) : (pop^[calls] s).scopeAt number = s.scopeAt number := by
  induction calls with
  | zero => rfl
  | succ calls ih =>
    rw [Function.iterate_succ_apply'] at there ⊢
    rw [depth_pop] at there
    rw [scopeAt_pop, if_pos there, ih (Nat.le_trans there (Nat.sub_le _ _))]

/-- A name that the scope of a frame forwards is seen, after a value was given to it there, by every
scope that forwards the name to the same place or keeps it there, also when calls have been left. -/
lemma seenAt?_iterate_pop_set {number target : Nat} (h : s.WellRedirected)
    (forwards : s.redirectAt? s.current name = some target)
    (shares : (s.redirectAt? number name).getD number = target) (value : String) (calls : Nat)
    (there : number ≤ (pop^[calls] (s.set name value)).depth) :
    (pop^[calls] (s.set name value)).seenAt? number name = some value := by
  have home : s.resolve name = target := congrArg (Option.getD · s.current) forwards
  have below : target ≤ number := by
    cases outer : s.redirectAt? number name with
    | none => exact Nat.le_of_eq (by rw [← shares, outer]; rfl)
    | some other =>
      rw [outer] at shares
      cases shares
      exact Nat.le_of_lt (h.outward _ _ _ outer).1
  have redirects : (pop^[calls] (s.set name value)).redirectAt? number name =
      s.redirectAt? number name := by
    rw [redirectAt?, scopeAt_iterate_pop _ calls there]
    exact s.redirectAt?_modifyScope fun _ _ => rfl
  rw [seenAt?, redirects, shares, bindingAt?, scopeAt_iterate_pop _ calls (Nat.le_trans below there),
    ← home]
  have known := get?_set (h.isSome_scopeAt_resolve name) value
  rwa [get?, resolve_set] at known

/-- The scopes around the current one forward a name only to frames that have a value for it. -/
def Settled (s : ScopeStack) (name : String) : Prop :=
  ∀ number < s.current, ∀ target ∈ s.redirectAt? number name, (s.bindingAt? target name).isSome

/-- A name cannot be declared nonlocal where no scope around the current one finds it. -/
lemma declareNonlocal?_eq_none_iff :
    s.declareNonlocal? name = none ↔ ∀ number < s.current, s.foundAt? number name = none := by
  rw [declareNonlocal?, Option.map_eq_none_iff, enclosing?_eq_search, search_eq_none_iff]

/-- Behind settled names, a scope that finds a name sees a value for it. -/
lemma Settled.isSome_seenAt? (settled : s.Settled name) {number target : Nat}
    (below : number < s.current) (found : s.foundAt? number name = some target) :
    (s.seenAt? number name).isSome := by
  rw [seenAt?_of_foundAt? found]
  rw [foundAt?] at found
  cases forwarded : s.redirectAt? number name with
  | some other =>
    rw [forwarded] at found
    cases found
    exact settled number below _ forwarded
  | none =>
    rw [forwarded, Option.none_or] at found
    split at found
    · cases found
      assumption
    · cases found

/-- A name that was declared nonlocal and a scope that finds it share one binding: what is written to
the name later, as long as nothing else was declared of it, that scope sees. -/
lemma nonlocal_shares {s' : ScopeStack} (h : s.WellRedirected) {number target : Nat}
    (below : number < s.current) (found : s.foundAt? number name = some target)
    (declared : s.redirect name target = s') (after : s'.WellRedirected) {later : List Operation}
    (undisturbed : Undisturbed s.current name s' later)
    (back : (later.foldl Operation.apply s').current = s.current) (value : String) (calls : Nat)
    (there : number ≤ (pop^[calls] ((later.foldl Operation.apply s').set name value)).depth) :
    (pop^[calls] ((later.foldl Operation.apply s').set name value)).seenAt? number name =
      some value := by
  have owner := isSome_scopeAt_current h.isSome_scopeAt_zero
  have forwards : s'.redirectAt? s.current name = some target := by
    rw [← declared]
    exact redirectAt?_redirect owner target
  have kept := redirectAt?_of_undisturbed forwards undisturbed
  have outer : s'.redirectAt? number name = s.redirectAt? number name := by
    rw [← declared]
    exact redirectAt?_redirect_of_ne fun here => absurd here (Nat.ne_of_lt below)
  have leads : (later.foldl Operation.apply s').redirectAt?
      (later.foldl Operation.apply s').current name = some target := by
    rw [back, kept _ (Nat.le_refl _), forwards]
  refine seenAt?_iterate_pop_set (after.foldl_apply later) leads ?_ value calls there
  rw [kept number (Nat.le_of_lt below), outer, home_of_foundAt? found]

/-- After any operations, a name can be declared nonlocal if some scope around the current one sees a
value for it, and, where these scopes forward it only to frames with a value, only then. The current
scope then sees what the nearest such scope does, and as long as nothing else is declared of the name
in it, what it writes to the name that scope sees, also when calls have been left. Otherwise nothing
changes. -/
theorem nonlocal_reaches_nearest (operations : List Operation) (name : String) :
    let s := Operation.run operations
    ((∃ number < s.current, (s.seenAt? number name).isSome) → (s.declareNonlocal? name).isSome) ∧
    (s.Settled name → (s.declareNonlocal? name).isSome →
      ∃ number < s.current, (s.seenAt? number name).isSome) ∧
    (∀ s', s.declareNonlocal? name = some s' → ∃ number < s.current,
      (s.Settled name → (s.seenAt? number name).isSome) ∧
      (∀ between, number < between → between < s.current → s.seenAt? between name = none) ∧
      s'.get? name = s.seenAt? number name ∧
      ∀ later, Undisturbed s.current name s' later →
        let t := later.foldl Operation.apply s'
        t.current = s.current → ∀ value calls, number ≤ (pop^[calls] (t.set name value)).depth →
          (pop^[calls] (t.set name value)).seenAt? number name = some value) ∧
    (s.declareNonlocal? name = none → (Operation.declareNonlocal name).apply s = s) := by
  intro s
  have sound : s.WellRedirected := .run operations
  have nearest : ∀ s', s.declareNonlocal? name = some s' → ∃ number < s.current, ∃ target,
      s.redirect name target = s' ∧ s.foundAt? number name = some target ∧
        ∀ between, number < between → between < s.current → s.foundAt? between name = none := by
    intro s' declared
    obtain ⟨target, found, rfl⟩ := Option.map_eq_some_iff.1 declared
    rw [enclosing?_eq_search] at found
    obtain ⟨number, below, here, closest⟩ := search_eq_some found
    exact ⟨number, below, target, rfl, here, closest⟩
  refine ⟨?_, ?_, ?_, ?_⟩
  · rintro ⟨number, below, sees⟩
    rw [Option.isSome_iff_ne_none]
    intro refused
    rw [seenAt?_of_foundAt?_none (declareNonlocal?_eq_none_iff.1 refused number below)] at sees
    cases sees
  · intro settled declared
    obtain ⟨s', declared⟩ := Option.isSome_iff_exists.1 declared
    obtain ⟨number, below, target, -, found, -⟩ := nearest s' declared
    exact ⟨number, below, settled.isSome_seenAt? below found⟩
  · intro s' declared
    obtain ⟨number, below, target, rfl, found, closest⟩ := nearest s' declared
    refine ⟨number, below, fun settled => settled.isSome_seenAt? below found, ?_, ?_, ?_⟩
    · exact fun between above lt => seenAt?_of_foundAt?_none (closest between above lt)
    · have owner := isSome_scopeAt_current sound.isSome_scopeAt_zero
      have same : (s.redirect name target).current = s.current := s.current_modifyScope _ _
      rw [get?_eq_seenAt?, seenAt?, same, redirectAt?_redirect owner, Option.getD_some,
        bindingAt?_redirect, seenAt?_of_foundAt? found]
    · intro later undisturbed t back value calls there
      exact nonlocal_shares sound below found rfl (sound.declareNonlocal declared) undisturbed back
        value calls there
  · intro refused
    show (s.declareNonlocal? name).getD s = s
    rw [refused]
    rfl

/-- Two calls of definitions, of which the outer one forwards a name to the global scope. -/
def globalInOuter (before : List Operation) : List Operation :=
  before ++ [.push ⟨"outer", .command, [], .origin⟩ true, .declareGlobal "x",
    .push ⟨"inner", .command, [], .origin⟩ true]

/-- If the global scope has a value for the name, the inner call reaches it through the outer one. -/
example : (((Operation.run (globalInOuter [.set "x" "a"])).declareNonlocal? "x").map
    fun s => (s.set "x" "b").unwind.get? "x") = some (some "b") := by
  decide

/-- A name can be declared nonlocal that no scope sees a value for: it is enough that one forwards
it. -/
theorem nonlocal_without_value :
    let s := Operation.run (globalInOuter [])
    (s.declareNonlocal? "x").isSome ∧ ∀ number < s.current, s.seenAt? number "x" = none := by
  decide

end ScopeStack

end Scriptlet
