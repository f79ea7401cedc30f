/-!
# Tables

A table maps keys to values and keeps its keys in the order in which they came. Inserting under a
key that is there replaces the value and keeps the place. Bindings, definitions and chains of
handlers are tables.

The view of a table is `get?`; `get?_insert` and `get?_erase` say what the two operations do to it.
-/

namespace Scriptlet

/-- Pairs of a key and a value, in order of insertion. -/
structure Table (κ : Type) (α : Type) where
  entries : List (κ × α)
  deriving Repr, DecidableEq

namespace Table

variable {κ α : Type}

/-- The table without keys. -/
def empty : Table κ α := ⟨[]⟩

instance : Inhabited (Table κ α) := ⟨empty⟩

/-- The keys, in order of insertion. -/
def keys (t : Table κ α) : List κ :=
  t.entries.map Prod.fst

variable [DecidableEq κ]

/-- The value under the first pair with this key. -/
def find? (key : κ) : List (κ × α) → Option α
  | [] => none
  | (k, v) :: rest => if k = key then some v else find? key rest

/-- Replaces the value of the first pair with this key, or adds a pair at the end. -/
def put (key : κ) (value : α) : List (κ × α) → List (κ × α)
  | [] => [(key, value)]
  | (k, v) :: rest => if k = key then (k, value) :: rest else (k, v) :: put key value rest

/-- The value of a key. -/
def get? (t : Table κ α) (key : κ) : Option α :=
  find? key t.entries

/-- Whether the key has a value. -/
def contains (t : Table κ α) (key : κ) : Bool :=
  (t.get? key).isSome

/-- Gives the key this value. A key that is there keeps its place. -/
def insert (t : Table κ α) (key : κ) (value : α) : Table κ α :=
  ⟨put key value t.entries⟩

/-- Takes the key out. -/
def erase (t : Table κ α) (key : κ) : Table κ α :=
  ⟨t.entries.filter fun entry => entry.1 ≠ key⟩

/-- Keeps the pairs whose value passes the test. -/
def filterValues (t : Table κ α) (keep : α → Bool) : Table κ α :=
  ⟨t.entries.filter fun entry => keep entry.2⟩

/-- The table of the pairs; of two values for one key the later counts. -/
def ofList (pairs : List (κ × α)) : Table κ α :=
  pairs.foldl (fun t pair => t.insert pair.1 pair.2) empty

/-- Only the key that was put leads to another value. -/
theorem find?_put (key : κ) (value : α) (k : κ) (l : List (κ × α)) :
    find? k (put key value l) = if k = key then some value else find? k l := by
  induction l with
  | nil => simp [put, find?, eq_comm]
  | cons entry rest ih =>
    obtain ⟨k', v⟩ := entry
    by_cases h : k' = key <;> by_cases h' : k = key <;> grind [put, find?]

/-- Without the entries of a key, only this key leads nowhere. -/
theorem find?_filter_ne (key k : κ) (l : List (κ × α)) :
    find? k (l.filter fun entry => entry.1 ≠ key) = if k = key then none else find? k l := by
  induction l with
  | nil => simp [find?]
  | cons entry rest ih =>
    obtain ⟨k', v⟩ := entry
    by_cases h : k' = key <;> by_cases h' : k = key <;> grind [find?]

/-- An empty table has no values. -/
@[simp]
theorem get?_empty (k : κ) : (empty : Table κ α).get? k = none := rfl

/-- After an insertion the key has the new value and every other key what it had. -/
theorem get?_insert (t : Table κ α) (key : κ) (value : α) (k : κ) :
    (t.insert key value).get? k = if k = key then some value else t.get? k :=
  find?_put key value k t.entries

/-- After an erasure the key has no value and every other key what it had. -/
theorem get?_erase (t : Table κ α) (key k : κ) :
    (t.erase key).get? k = if k = key then none else t.get? k :=
  find?_filter_ne key k t.entries

end Table

end Scriptlet
