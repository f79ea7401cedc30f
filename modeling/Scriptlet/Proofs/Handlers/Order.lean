import Mathlib.Data.List.Induction
import Scriptlet.Proofs.Evaluation.Admission
import Scriptlet.Proofs.Handlers.Keys

/-!
# Chains of handlers

A chain of handlers is a map that keeps its names in the order in which they came. Both are read off
the changes that made it: a name has the handler that was added under it last (`Chain.Latest`), and
its place since it was added when it was not there (`Chain.Placed`). A call goes to the handler with
the first place that answers to its name (`Chain.Serves`).
-/

namespace Scriptlet

open Evaluation

namespace Chain

variable {σ : Type}

/-- The changes that a host makes to a chain. -/
inductive Change (σ : Type) where
  | add (name : String) (handler : Handler σ)
  | remove (name : String)

/-- The name that a change is about. -/
def Change.name : Change σ → String
  | add name _ => name
  | remove name => name

/-- The chain after a change, which is what `Registry.add` and `Registry.remove` make of it. -/
def Change.apply (chain : Chain σ) : Change σ → Chain σ
  | add name handler => chain.insert name handler
  | remove name => chain.erase name

/-- The chain after changes in order, from none. -/
def built (changes : List (Change σ)) : Chain σ :=
  changes.foldl Change.apply .empty

/-- The handler was added under the name, and no later change is about the name. -/
def Latest (changes : List (Change σ)) (name : String) (handler : Handler σ) : Prop :=
  ∃ before after, changes = before ++ .add name handler :: after ∧
    ∀ change ∈ after, change.name ≠ name

/-- After so many changes the name was added when it was not there, and it was not removed later. -/
def Placed (changes : List (Change σ)) (name : String) (place : Nat) : Prop :=
  ∃ handler before after, changes = before ++ .add name handler :: after ∧ before.length = place ∧
    (∀ earlier, ¬ Latest before name earlier) ∧ .remove name ∉ after

/-- The handler answers to the name of a call, and those with a place before it do not. -/
def Serves (chain : Chain σ) (call : String) (handler : Handler σ) : Prop :=
  ∃ before name after, chain.keys = before ++ name :: after ∧ chain.get? name = some handler ∧
    handler.answersTo call = true ∧
    ∀ earlier ∈ before, ∀ other, chain.get? earlier = some other → other.answersTo call = false

variable {changes : List (Change σ)} {chain : Chain σ} {name name' call : String}
  {handler handler' : Handler σ} {place : Nat}

/-- Something in a list with one more item at its end is that item or something in the list. -/
lemma exists_split_concat {α : Type} {l : List α} {last x : α} {holds : List α → List α → Prop} :
    (∃ before after, l ++ [last] = before ++ x :: after ∧ holds before after) ↔
      (last = x ∧ holds l []) ∨
        ∃ before after, l = before ++ x :: after ∧ holds before (after ++ [last]) := by
  constructor
  · rintro ⟨before, after, same, h⟩
    rcases List.eq_nil_or_concat' after with rfl | ⟨after, c, rfl⟩
    · obtain ⟨rfl, rfl⟩ := List.append_singleton_inj.1 same
      exact .inl ⟨rfl, h⟩
    · rw [← List.cons_append, ← List.append_assoc] at same
      obtain ⟨rfl, rfl⟩ := List.append_singleton_inj.1 same
      exact .inr ⟨before, after, rfl, h⟩
  · rintro (⟨rfl, h⟩ | ⟨before, after, rfl, h⟩)
    · exact ⟨l, [], rfl, h⟩
    · exact ⟨before, after ++ [last], by rw [List.append_assoc, List.cons_append], h⟩

/-- The last handler added under a name is the latest there. -/
lemma latest_add : Latest (changes ++ [.add name' handler']) name handler ↔
    (name' = name ∧ handler' = handler) ∨ (name' ≠ name ∧ Latest changes name handler) := by
  rw [Latest, exists_split_concat, Latest]
  simp [Change.name, or_imp, forall_and, and_comm, and_left_comm]

/-- Under a name that was taken out nothing is the latest. -/
lemma latest_remove : Latest (changes ++ [.remove name']) name handler ↔
    name' ≠ name ∧ Latest changes name handler := by
  rw [Latest, exists_split_concat, Latest]
  simp [Change.name, or_imp, forall_and, and_comm, and_left_comm]

/-- A name keeps the place at which it was added first. -/
lemma placed_add : Placed (changes ++ [.add name' handler']) name place ↔
    (name' = name ∧ changes.length = place ∧ ∀ earlier, ¬ Latest changes name earlier) ∨
      Placed changes name place := by
  simp only [Placed, exists_split_concat]
  simp [exists_or]

/-- A name that is taken out has no place any more. -/
lemma placed_remove : Placed (changes ++ [.remove name']) name place ↔
    name' ≠ name ∧ Placed changes name place := by
  simp only [Placed, exists_split_concat]
  constructor
  · rintro ⟨handler, ⟨⟨⟩, -⟩ | ⟨before, after, split, placed, fresh, kept⟩⟩
    rw [List.mem_append, List.mem_singleton, not_or] at kept
    exact ⟨fun same => kept.2 (by rw [same]), handler, before, after, split, placed, fresh, kept.1⟩
  · rintro ⟨other, handler, before, after, split, placed, fresh, kept⟩
    refine ⟨handler, .inr ⟨before, after, split, placed, fresh, ?_⟩⟩
    rw [List.mem_append, List.mem_singleton, not_or]
    refine ⟨kept, ?_⟩
    rintro ⟨⟩
    exact other rfl

/-- The last change is made to what those before it have built. -/
lemma built_concat (changes : List (Change σ)) (change : Change σ) :
    built (changes ++ [change]) = change.apply (built changes) := by
  rw [built, List.foldl_append]
  rfl

/-- The value of a name is the handler that was added under it last. -/
lemma get?_built : (built changes).get? name = some handler ↔ Latest changes name handler := by
  induction changes using List.reverseRecOn with
  | nil =>
    constructor
    · nofun
    · rintro ⟨before, after, same, -⟩
      simp at same
  | append_singleton changes change ih =>
    rw [built_concat]
    cases change with
    | add name' handler' =>
      rw [Change.apply, Table.get?_insert, latest_add, ← ih]
      split
      · rename_i same
        simp [same]
      · rename_i other
        simp [Ne.symm other]
    | remove name' =>
      rw [Change.apply, Table.get?_erase, latest_remove, ← ih]
      split
      · rename_i same
        simp [same]
      · rename_i other
        simp [Ne.symm other]

/-- The names are those that were added last and not removed. -/
lemma mem_keys_built : name ∈ (built changes).keys ↔ ∃ handler, Latest changes name handler := by
  rw [Table.mem_keys_iff, Option.isSome_iff_exists]
  exact exists_congr fun handler => get?_built

/-- Whatever the changes, no name is registered twice. -/
lemma nodup_keys_built (changes : List (Change σ)) : (built changes).keys.Nodup := by
  induction changes using List.reverseRecOn with
  | nil => exact List.nodup_nil
  | append_singleton changes change ih =>
    rw [built_concat]
    cases change with
    | add name handler => exact Table.nodup_keys_insert ih
    | remove name => exact Table.nodup_keys_erase ih

/-- A place is that of a change that was made. -/
lemma Placed.lt (h : Placed changes name place) : place < changes.length := by
  obtain ⟨handler, before, after, rfl, rfl, -⟩ := h
  rw [List.length_append, List.length_cons]
  omega

/-- What has a place is what was added last and not removed. -/
lemma exists_placed_iff : (∃ place, Placed changes name place) ↔
    ∃ handler, Latest changes name handler := by
  induction changes using List.reverseRecOn with
  | nil => simp [Placed, Latest]
  | append_singleton changes change ih =>
    cases change with
    | add name' handler' =>
      simp only [placed_add, latest_add]
      by_cases same : name' = name
      · refine iff_of_true ?_ ⟨handler', .inl ⟨same, rfl⟩⟩
        by_cases there : ∃ earlier, Latest changes name earlier
        · obtain ⟨place, placed⟩ := ih.2 there
          exact ⟨place, .inr placed⟩
        · exact ⟨changes.length, .inl ⟨same, rfl, not_exists.1 there⟩⟩
      · simp [same, ih]
    | remove name' =>
      simp only [placed_remove, latest_remove, exists_and_left, ih]

/-- The names stand in the order in which they came. -/
lemma pairwise_keys_built (changes : List (Change σ)) : (built changes).keys.Pairwise fun a b =>
    ∀ i j, Placed changes a i → Placed changes b j → i < j := by
  induction changes using List.reverseRecOn with
  | nil => exact .nil
  | append_singleton changes change ih =>
    rw [built_concat]
    cases change with
    | add new handler =>
      -- a name that is there keeps the place that it had
      have old : ∀ {name place}, name ∈ (built changes).keys →
          Placed (changes ++ [.add new handler]) name place → Placed changes name place := by
        intro name place there placed
        obtain ⟨earlier, latest⟩ := mem_keys_built.1 there
        exact (placed_add.1 placed).resolve_left fun fresh => fresh.2.2 earlier latest
      have kept := ih.imp_of_mem fun ha hb before i j placed placed' =>
        before i j (old ha placed) (old hb placed')
      by_cases there : new ∈ (built changes).keys
      · rwa [Change.apply, Table.keys_insert_of_mem there]
      · rw [Change.apply, Table.keys_insert_of_not_mem there, List.pairwise_append]
        refine ⟨kept, List.pairwise_singleton _ _, ?_⟩
        intro a ha b hb i j placed placed'
        obtain rfl := List.mem_singleton.1 hb
        have before := (old ha placed).lt
        rcases placed_add.1 placed' with ⟨-, rfl, -⟩ | earlier
        · exact before
        · exact absurd (mem_keys_built.2 (exists_placed_iff.1 ⟨j, earlier⟩)) there
    | remove gone =>
      rw [Change.apply, Table.keys_erase]
      refine (ih.filter _).imp fun before i j placed placed' => ?_
      exact before i j (placed_remove.1 placed).2 (placed_remove.1 placed').2

/-- The handler for a call is that of the first entry that answers to it. -/
lemma handlerFor?_eq_find? (chain : Chain σ) (call : String) : chain.handlerFor? call =
    (chain.entries.find? fun entry => entry.2.answersTo call).map Prod.snd := by
  rw [handlerFor?]
  induction chain.entries with
  | nil => rfl
  | cons entry rest ih =>
    rw [firstFor, List.find?_cons]
    cases entry.2.answersTo call with
    | true => rfl
    | false => exact ih

/-- A call goes to the handler with the first place that answers to its name. -/
lemma handlerFor?_eq_some_iff (nodup : chain.keys.Nodup) :
    chain.handlerFor? call = some handler ↔ Serves chain call handler := by
  have value : ∀ entry ∈ chain.entries, chain.get? entry.1 = some entry.2 :=
    fun entry mem => Table.get?_of_mem nodup mem
  rw [handlerFor?_eq_find?, Option.map_eq_some_iff]
  constructor
  · rintro ⟨⟨name, _⟩, found, rfl⟩
    obtain ⟨answers, before, after, split, others⟩ := List.find?_eq_some_iff_append.1 found
    rw [split] at value
    refine ⟨before.map Prod.fst, name, after.map Prod.fst, ?_,
      value _ (List.mem_append_right _ (List.mem_cons_self ..)), answers, ?_⟩
    · rw [Table.keys, split, List.map_append, List.map_cons]
    · intro earlier mem other has
      obtain ⟨entry, there, rfl⟩ := List.mem_map.1 mem
      rw [value entry (List.mem_append_left _ there)] at has
      cases has
      exact (Bool.not_eq_true' _).mp (others entry there)
  · rintro ⟨before, name, after, split, has, answers, others⟩
    obtain ⟨front, back, parted, rfl, behind⟩ := List.map_eq_append_iff.1 split
    obtain ⟨⟨name, first⟩, rest, rfl, rfl, rfl⟩ := List.map_eq_cons_iff.1 behind
    rw [parted] at value
    rw [value _ (List.mem_append_right _ (List.mem_cons_self ..))] at has
    cases has
    refine ⟨(name, first), List.find?_eq_some_iff_append.2 ⟨answers, front, rest, parted, ?_⟩, rfl⟩
    intro entry mem
    rw [Bool.not_eq_true']
    exact others _ (List.mem_map_of_mem mem) _ (value entry (List.mem_append_left _ mem))

/-- No handler is found for a call if and only if none answers to its name. -/
lemma handlerFor?_eq_none_iff (nodup : chain.keys.Nodup) : chain.handlerFor? call = none ↔
    ∀ name handler, chain.get? name = some handler → handler.answersTo call = false := by
  rw [handlerFor?_eq_find?, Option.map_eq_none_iff, List.find?_eq_none]
  constructor
  · intro none name handler has
    exact Bool.eq_false_iff.2 (none _ (Table.mem_of_get? has))
  · intro refuses entry mem
    exact Bool.eq_false_iff.1 (refuses _ _ (Table.get?_of_mem nodup mem))

/-- A handler under a new name comes behind those that there are, so each call is served as before. -/
lemma Serves.insert (h : Serves chain call handler) {new : String} (fresh : new ∉ chain.keys)
    (added : Handler σ) : Serves (chain.insert new added) call handler := by
  obtain ⟨before, name, after, split, has, answers, others⟩ := h
  have old : ∀ name ∈ chain.keys, (chain.insert new added).get? name = chain.get? name := by
    intro name mem
    rw [Table.get?_insert, if_neg]
    rintro rfl
    exact fresh mem
  rw [split] at old
  refine ⟨before, name, after ++ [new], ?_, ?_, answers, ?_⟩
  · rw [Table.keys_insert_of_not_mem fresh, split, List.append_assoc, List.cons_append]
  · rw [old name (List.mem_append_right _ (List.mem_cons_self ..)), has]
  · intro earlier mem other
    rw [old earlier (List.mem_append_left _ mem)]
    exact others earlier mem other

/-- Registering a handler is a change of the chain for its kind of call. -/
lemma chain_addHandler (it : Interpreter σ) (kind : CallKind) (name : String) (handler : Handler σ) :
    (it.addHandler kind name handler).registry.chain kind =
      (it.registry.chain kind).insert name handler := by
  cases kind <;> rfl

/-- A chain is a map that keeps its names in order, whatever changes made it. Its names are different,
are those that have a place, and stand in the order of their places. The handler of a name is the one
that was added under it last, if no removal came later, and adding another one under it changes
nothing else. A call that no definition takes goes to the handler with the first place that answers to
its name, in a frame of its own, and there is one unless no handler answers; then the call fails, and
nothing is changed. A handler under a new name leaves every call to the handler that serves it. -/
theorem chain_is_ordered_map (changes : List (Change σ)) :
    let chain := built changes
    chain.keys.Nodup ∧
    (∀ name, name ∈ chain.keys ↔ ∃ place, Placed changes name place) ∧
    (chain.keys.Pairwise fun a b => ∀ i j, Placed changes a i → Placed changes b j → i < j) ∧
    (∀ name handler, chain.get? name = some handler ↔ Latest changes name handler) ∧
    (∀ name ∈ chain.keys, ∀ handler, let chain' := built (changes ++ [.add name handler])
      chain'.keys = chain.keys ∧ chain'.get? name = some handler ∧
        ∀ other, other ≠ name → chain'.get? other = chain.get? other) ∧
    (∀ call, (∃ handler, Serves chain call handler) ↔
      ∃ name handler, chain.get? name = some handler ∧ handler.answersTo call = true) ∧
    (∀ (it : Interpreter σ) (site : CallSite), it.registry.chain site.kind = chain →
      ∀ run expand rounds name args s, it.Admits site.kind name s →
        let call : ActiveCall := ⟨name, site.kind, args, site.location⟩
        (∀ handler, Serves chain name handler →
          it.serve run expand rounds site name args s =
            (inFrame (.ofCall call false) (it.handle run expand rounds site call handler) >>=
              fun answer => pure (answer.getD "")) s) ∧
        ((¬ ∃ handler, Serves chain name handler) →
          it.serve run expand rounds site name args s =
            some (.error ⟨.noCall site.kind name, some site.location,
              s.context.scopes.backtrace ++ [call]⟩, s))) ∧
    ∀ (it : Interpreter σ) kind, it.registry.chain kind = chain →
      ∀ new ∉ chain.keys, ∀ added call handler, Serves chain call handler →
        Serves ((it.addHandler kind new added).registry.chain kind) call handler := by
  intro chain
  have nodup : chain.keys.Nodup := nodup_keys_built changes
  have serves : ∀ call, (∃ handler, Serves chain call handler) ↔
      ∃ name handler, chain.get? name = some handler ∧ handler.answersTo call = true := by
    intro call
    constructor
    · rintro ⟨handler, before, name, after, -, has, answers, -⟩
      exact ⟨name, handler, has, answers⟩
    · rintro ⟨name, handler, has, answers⟩
      cases found : chain.handlerFor? call with
      | some first => exact ⟨first, (handlerFor?_eq_some_iff nodup).1 found⟩
      | none =>
        rw [(handlerFor?_eq_none_iff nodup).1 found name handler has] at answers
        cases answers
  refine ⟨nodup, fun name => ?_, pairwise_keys_built changes, fun name handler => get?_built, ?_,
    serves, ?_, ?_⟩
  · rw [exists_placed_iff]
    exact mem_keys_built
  · intro name there handler
    rw [built_concat]
    refine ⟨Table.keys_insert_of_mem there, ?_, fun other apart => ?_⟩
    · rw [Change.apply, Table.get?_insert, if_pos rfl]
    · rw [Change.apply, Table.get?_insert, if_neg apart]
  · intro it site same run expand rounds name args s admits call
    constructor
    · intro handler first
      apply Interpreter.serve_handled admits
      rw [same]
      exact (handlerFor?_eq_some_iff nodup).2 first
    · intro unserved
      apply Interpreter.serve_unresolved admits
      rw [same]
      cases found : chain.handlerFor? name with
      | some handler => exact absurd ⟨handler, (handlerFor?_eq_some_iff nodup).1 found⟩ unserved
      | none => rfl
  · intro it kind same new fresh added call handler first
    rw [chain_addHandler, same]
    exact first.insert fresh added

end Chain

end Scriptlet
