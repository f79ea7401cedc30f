import Scriptlet.Handler
import Scriptlet.Proofs.Handlers.Keys

/-!
# Names of callbacks

A name leads to the callback that is registered under it or, if it is an alias, under the name that it
stands for (`Callbacks.home?`). Taking a name out takes the callback out and every alias of it, so
that nothing leads to it any more, and leaves where all other callbacks are found
(`Callbacks.removeCall_takes_name_out`). An alias that has the name itself is left, too.
-/

namespace Scriptlet.Callbacks

variable {σ : Type} {t : Callbacks σ} {name n k m a : String} {callback : Callback σ}

/-- The changes that a host makes to callbacks. -/
inductive Change (σ : Type) where
  | addCall (name : String) (callback : Callback σ)
  | addAlias (other target : String)
  | removeCall (name : String)

/-- The callbacks after a change. -/
def Change.apply (t : Callbacks σ) : Change σ → Callbacks σ
  | addCall name callback => t.addCall name callback
  | addAlias other target => t.addAlias other target
  | removeCall name => t.removeCall name

/-- The callbacks after changes in order, from none. -/
def built (changes : List (Change σ)) : Callbacks σ :=
  changes.foldl Change.apply .empty

/-- The name that a name stands for: the one it is an alias of, or else itself. -/
def target (t : Callbacks σ) (name : String) : String :=
  (t.aliases.get? name).getD name

/-- The name under which the callback is registered that a name leads to, if there is one. -/
def home? (t : Callbacks σ) (name : String) : Option String :=
  if t.calls.contains (t.target name) then some (t.target name) else none

/-- Every name is an alias once at most. -/
def WellAliased (t : Callbacks σ) : Prop :=
  t.aliases.keys.Nodup

/-- A name finds the callback under its target. -/
lemma find?_eq (t : Callbacks σ) (name : String) : t.find? name = t.calls.get? (t.target name) := rfl

/-- A name is at home at its target, if there is a callback. -/
lemma home?_eq_some_iff : t.home? k = some m ↔ t.target k = m ∧ t.calls.contains m = true := by
  rw [home?]
  constructor
  · intro h
    split at h
    · rename_i registered
      cases h
      exact ⟨rfl, registered⟩
    · cases h
  · rintro ⟨rfl, registered⟩
    rw [if_pos registered]

/-- The names that stand for callbacks are those that are at home somewhere. -/
lemma contains_eq_true_iff : t.contains k = true ↔ ∃ m, t.home? k = some m := by
  rw [contains, find?_eq]
  constructor
  · intro registered
    exact ⟨_, home?_eq_some_iff.2 ⟨rfl, registered⟩⟩
  · rintro ⟨m, h⟩
    obtain ⟨rfl, registered⟩ := home?_eq_some_iff.1 h
    exact registered

/-- A name that leads somewhere stands for the callback that is registered there. -/
lemma find?_of_home? (h : t.home? k = some m) : t.find? k = t.calls.get? m := by
  rw [find?_eq, (home?_eq_some_iff.1 h).1]

namespace WellAliased

/-- Without aliases, all aliases are well. -/
lemma empty : (Callbacks.empty : Callbacks σ).WellAliased :=
  List.nodup_nil

/-- Every change keeps a name from being an alias twice. -/
lemma apply (h : t.WellAliased) (change : Change σ) : (change.apply t).WellAliased := by
  cases change with
  | addCall name callback => exact h
  | addAlias other target => exact Table.nodup_keys_insert h
  | removeCall name => exact Table.nodup_keys_filterValues h _

/-- Changes keep the aliases well. -/
lemma foldl_apply (h : t.WellAliased) (changes : List (Change σ)) :
    (changes.foldl Change.apply t).WellAliased := by
  induction changes generalizing t with
  | nil => exact h
  | cons change rest ih => exact ih (h.apply change)

/-- Whatever the changes, the aliases are well. -/
lemma built (changes : List (Change σ)) : (built changes).WellAliased :=
  empty.foldl_apply changes

end WellAliased

/-- Of the aliases, those of the name that is taken out go. -/
lemma get?_aliases_removeCall (h : t.WellAliased) (n k : String) :
    (t.removeCall n).aliases.get? k = (t.aliases.get? k).filter fun target => target ≠ n :=
  Table.get?_filterValues h _ k

/-- Of the callbacks, only the one under the name is taken out. -/
lemma get?_calls_removeCall (t : Callbacks σ) (n m : String) :
    (t.removeCall n).calls.get? m = if m = n then none else t.calls.get? m :=
  Table.get?_erase t.calls n m

/-- Another name keeps its callback, and the one that is taken out has none. -/
lemma contains_calls_removeCall (t : Callbacks σ) (n m : String) :
    (t.removeCall n).calls.contains m = true ↔ m ≠ n ∧ t.calls.contains m = true := by
  rw [Table.contains, get?_calls_removeCall]
  split
  · rename_i same
    exact iff_of_false Bool.false_ne_true fun h => h.1 same
  · rename_i other
    exact (and_iff_right other).symm

/-- A name that stood for the one taken out stands for itself, and every other for what it did. -/
lemma target_removeCall (h : t.WellAliased) (n k : String) :
    (t.removeCall n).target k = if t.target k = n then k else t.target k := by
  rw [target, get?_aliases_removeCall h, target]
  cases t.aliases.get? k with
  | none =>
    show k = if k = n then k else k
    rw [ite_self]
  | some other =>
    rw [Option.filter_some, Option.getD_some]
    by_cases same : other = n <;> simp [same]

/-- Nothing leads to the name that was taken out. -/
lemma home?_removeCall_ne (t : Callbacks σ) (n k : String) : (t.removeCall n).home? k ≠ some n := by
  intro h
  obtain ⟨-, registered⟩ := home?_eq_some_iff.1 h
  exact ((contains_calls_removeCall t n n).1 registered).1 rfl

/-- What led to another name still does. -/
lemma home?_removeCall_of_ne (h : t.WellAliased) (leads : t.home? k = some m) (other : m ≠ n) :
    (t.removeCall n).home? k = some m := by
  obtain ⟨rfl, registered⟩ := home?_eq_some_iff.1 leads
  apply home?_eq_some_iff.2
  rw [target_removeCall h, if_neg other, contains_calls_removeCall]
  exact ⟨rfl, other, registered⟩

/-- A name of its own that is taken out leads nowhere, unless it is an alias of another one. -/
lemma contains_removeCall_self (h : t.WellAliased) (n : String) :
    (t.removeCall n).contains n = true ↔
      ∃ m, m ≠ n ∧ t.aliases.get? n = some m ∧ t.calls.contains m = true := by
  rw [contains_eq_true_iff]
  constructor
  · rintro ⟨m, leads⟩
    obtain ⟨same, registered⟩ := home?_eq_some_iff.1 leads
    obtain ⟨other, registered⟩ := (contains_calls_removeCall t n m).1 registered
    refine ⟨m, other, ?_, registered⟩
    rw [target, get?_aliases_removeCall h] at same
    cases stands : t.aliases.get? n with
    | none =>
      rw [stands] at same
      exact absurd same.symm other
    | some target =>
      rw [stands, Option.filter_some] at same
      split at same
      · rw [← same]
        rfl
      · exact absurd same.symm other
  · rintro ⟨m, other, stands, registered⟩
    refine ⟨m, home?_removeCall_of_ne h (home?_eq_some_iff.2 ⟨?_, registered⟩) other⟩
    rw [target, stands, Option.getD_some]

/-- A name becomes an alias of another only where it is made one. -/
lemma get?_aliases_apply (h : t.WellAliased) {change : Change σ} (unlike : change ≠ .addAlias a n)
    (gone : t.aliases.get? a ≠ some n) : (change.apply t).aliases.get? a ≠ some n := by
  cases change with
  | addCall name callback => exact gone
  | addAlias other target =>
    show (t.aliases.insert other target).get? a ≠ some n
    rw [Table.get?_insert]
    split
    · rename_i same
      rintro ⟨⟩
      exact unlike (by rw [same])
    · exact gone
  | removeCall name =>
    show (t.removeCall name).aliases.get? a ≠ some n
    rw [get?_aliases_removeCall h]
    intro kept
    exact gone (Option.filter_eq_some_iff.1 kept).1

/-- An alias that is gone comes back only if it is added again. -/
lemma get?_aliases_foldl (h : t.WellAliased) {later : List (Change σ)}
    (unlike : .addAlias a n ∉ later) (gone : t.aliases.get? a ≠ some n) :
    (later.foldl Change.apply t).aliases.get? a ≠ some n := by
  induction later generalizing t with
  | nil => exact gone
  | cons change rest ih =>
    rw [List.mem_cons, not_or] at unlike
    exact ih (h.apply change) unlike.2 (get?_aliases_apply h (Ne.symm unlike.1) gone)

/-- What is no alias of a name and not the name itself does not lead there. -/
lemma home?_ne_of_get?_aliases (gone : t.aliases.get? a ≠ some n) (other : a ≠ n) :
    t.home? a ≠ some n := by
  intro leads
  obtain ⟨same, -⟩ := home?_eq_some_iff.1 leads
  rw [target] at same
  cases stands : t.aliases.get? a with
  | none =>
    rw [stands] at same
    exact other same
  | some target =>
    rw [stands] at same gone
    exact gone (congrArg some same)

/-- A name that is taken out of callbacks, however these were built, leads nowhere, unless it is an
alias of another name that leads somewhere, which it stays. No name leads any more to the callback
that was registered under it. Every name that led to another one leads there still, and stands for the
same callback. An alias of the name is none any more, whatever is added later, until it is made one
again. -/
theorem removeCall_takes_name_out (changes : List (Change σ)) (n : String) :
    let t := built changes
    let t' := t.removeCall n
    (t'.contains n = true ↔
      ∃ m, m ≠ n ∧ t.aliases.get? n = some m ∧ t.calls.contains m = true) ∧
    (∀ k, t'.home? k ≠ some n) ∧
    (∀ callback, (∀ m, t.calls.get? m = some callback → m = n) → ∀ k, t'.find? k ≠ some callback) ∧
    (∀ k m, t.home? k = some m → m ≠ n → t'.home? k = some m ∧ t'.find? k = t.find? k) ∧
    ∀ a (later : List (Change σ)), t.aliases.get? a = some n → .addAlias a n ∉ later →
      let t'' := later.foldl Change.apply t'
      t''.aliases.get? a ≠ some n ∧ (a ≠ n → t''.home? a ≠ some n) := by
  intro t t'
  have h : t.WellAliased := .built changes
  refine ⟨contains_removeCall_self h n, home?_removeCall_ne t n, ?_, ?_, ?_⟩
  · intro callback only k found
    rw [find?_eq, get?_calls_removeCall] at found
    split at found
    · cases found
    · rename_i other
      exact other (only _ found)
  · intro k m leads other
    have still := home?_removeCall_of_ne h leads other
    refine ⟨still, ?_⟩
    rw [find?_of_home? still, find?_of_home? leads, get?_calls_removeCall, if_neg other]
  · intro a later _ unlike
    have gone : t'.aliases.get? a ≠ some n := by
      rw [get?_aliases_removeCall h]
      intro kept
      exact of_decide_eq_true (Option.filter_eq_some_iff.1 kept).2 rfl
    have gone := get?_aliases_foldl (h.apply (.removeCall n)) unlike gone
    exact ⟨gone, home?_ne_of_get?_aliases gone⟩

/-- A name that is an alias of another one is not taken out. -/
theorem removeCall_leaves_alias : ((built
    [.addCall "upper" fun _ => pure none, .addAlias "shout" "upper"] : Callbacks Unit).removeCall
      "shout").contains "shout" = true := by
  decide +kernel

end Scriptlet.Callbacks
