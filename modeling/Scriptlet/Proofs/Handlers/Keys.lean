import Mathlib.Data.List.Nodup
import Mathlib.Tactic.Lemma
import Scriptlet.Table

/-!
# The keys of a table

Inserting adds a key at the end unless it is there, and taking keys out leaves the others in their
order. So a table that was made from nothing holds every key once, and then it does not matter for a
key whether pairs are left out from the table or from what is looked up in it (`get?_filterValues`).
-/

namespace Scriptlet.Table

variable {κ α : Type} {t : Table κ α}

/-- With some of its entries taken out, a table still names no key twice. -/
lemma nodup_keys_filterValues (nodup : t.keys.Nodup) (keep : α → Bool) :
    (t.filterValues keep).keys.Nodup :=
  nodup.sublist (List.filter_sublist.map Prod.fst)

variable [DecidableEq κ] {key k : κ} {value : α}

/-- The keys are what has a value. -/
lemma mem_keys_iff : k ∈ t.keys ↔ (t.get? k).isSome := by
  obtain ⟨entries⟩ := t
  show k ∈ entries.map Prod.fst ↔ (find? k entries).isSome
  induction entries with
  | nil => exact iff_of_false List.not_mem_nil Bool.false_ne_true
  | cons entry rest ih =>
    obtain ⟨key, value⟩ := entry
    rw [List.map_cons, List.mem_cons, ih, find?]
    by_cases same : key = k
    · rw [if_pos same]
      exact iff_of_true (.inl same.symm) rfl
    · rw [if_neg same]
      exact or_iff_right (Ne.symm same)

/-- A key without a value is none of the table's. -/
lemma get?_eq_none_iff : t.get? k = none ↔ k ∉ t.keys := by
  rw [mem_keys_iff, Option.not_isSome_iff_eq_none]

/-- A key that is there keeps its place. -/
lemma keys_insert_of_mem (there : key ∈ t.keys) : (t.insert key value).keys = t.keys := by
  obtain ⟨entries⟩ := t
  change key ∈ entries.map Prod.fst at there
  show (put key value entries).map Prod.fst = entries.map Prod.fst
  induction entries with
  | nil => cases there
  | cons entry rest ih =>
    obtain ⟨k, v⟩ := entry
    rw [put]
    split
    · rfl
    · rename_i other
      have behind := ih ((List.mem_cons.1 there).resolve_left (Ne.symm other))
      rw [List.map_cons, behind, List.map_cons]

/-- A new key comes last. -/
lemma keys_insert_of_not_mem (fresh : key ∉ t.keys) :
    (t.insert key value).keys = t.keys ++ [key] := by
  obtain ⟨entries⟩ := t
  change key ∉ entries.map Prod.fst at fresh
  show (put key value entries).map Prod.fst = entries.map Prod.fst ++ [key]
  induction entries with
  | nil => rfl
  | cons entry rest ih =>
    obtain ⟨k, v⟩ := entry
    rw [List.map_cons, List.mem_cons, not_or] at fresh
    rw [put, if_neg (Ne.symm fresh.1), List.map_cons, ih fresh.2, List.map_cons, List.cons_append]

/-- With a key taken out, the others keep their order. -/
lemma keys_erase (t : Table κ α) (key : κ) :
    (t.erase key).keys = t.keys.filter fun k => k ≠ key := by
  rw [keys, keys, erase, List.filter_map]
  rfl

/-- A key that is put in is named once. -/
lemma nodup_keys_insert (nodup : t.keys.Nodup) : (t.insert key value).keys.Nodup := by
  by_cases there : key ∈ t.keys
  · rwa [keys_insert_of_mem there]
  · rw [keys_insert_of_not_mem there, ← List.concat_eq_append]
    exact nodup.concat there

/-- With a key taken out, no other is named twice. -/
lemma nodup_keys_erase (nodup : t.keys.Nodup) : (t.erase key).keys.Nodup := by
  rw [keys_erase]
  exact nodup.filter _

/-- A key has a value that it is paired with. -/
lemma mem_of_get? (has : t.get? k = some value) : (k, value) ∈ t.entries := by
  obtain ⟨entries⟩ := t
  change find? k entries = some value at has
  show (k, value) ∈ entries
  induction entries with
  | nil => cases has
  | cons entry rest ih =>
    obtain ⟨key, first⟩ := entry
    rw [find?] at has
    split at has
    · rename_i same
      cases has
      exact List.mem_cons.2 (.inl (by rw [same]))
    · exact List.mem_cons_of_mem _ (ih has)

/-- Where every key is there once, it has the value that it is paired with. -/
lemma get?_of_mem (nodup : t.keys.Nodup) (mem : (k, value) ∈ t.entries) : t.get? k = some value := by
  have there : (t.get? k).isSome := mem_keys_iff.1 (List.mem_map.2 ⟨_, mem, rfl⟩)
  obtain ⟨other, has⟩ := Option.isSome_iff_exists.1 there
  have same := List.inj_on_of_nodup_map nodup mem (mem_of_get? has) rfl
  rw [has, (Prod.mk.inj same).2]

/-- Where every key is there once, the value of a key is kept or left out with its pair. -/
lemma get?_filterValues (nodup : t.keys.Nodup) (keep : α → Bool) (k : κ) :
    (t.filterValues keep).get? k = (t.get? k).filter keep := by
  obtain ⟨entries⟩ := t
  change (entries.map Prod.fst).Nodup at nodup
  show find? k (entries.filter fun entry => keep entry.2) = (find? k entries).filter keep
  induction entries with
  | nil => rfl
  | cons entry rest ih =>
    obtain ⟨key, value⟩ := entry
    rw [List.map_cons, List.nodup_cons] at nodup
    have behind := ih nodup.2
    rw [find?, List.filter_cons]
    by_cases same : key = k
    · -- a value that is left out has no other pair behind it to show
      have none : find? k rest = none := by
        rw [same] at nodup
        exact get?_eq_none_iff (t := ⟨rest⟩).2 nodup.1
      rw [if_pos same, Option.filter_some]
      split
      · rw [find?, if_pos same]
      · rw [behind, none]
        rfl
    · rw [if_neg same, ← behind]
      split
      · rw [find?, if_neg same]
      · rfl

end Scriptlet.Table
