import Mathlib.Algebra.BigOperators.Group.List.Basic
import Scriptlet.Proofs.Library.Results

/-!
# Sums, products and differences of integers

Integers are combined from the left, and as soon as a result on the way has more than 64 bits the rest
is calculated with binary64 numbers. So the answer is the exact integer if and only if every result on
the way fits (`Calculation.integers_are_exact`). That the exact integer fits is not enough, and which
results are on the way depends on the order (`Calculation.partial_overflow_is_kept`).
-/

namespace Scriptlet

open Library

namespace Number

/-- The integer is one of 64 bits. -/
def Fits (n : Int) : Prop :=
  minInt ≤ n ∧ n ≤ maxInt

instance (n : Int) : Decidable (Fits n) :=
  inferInstanceAs (Decidable (minInt ≤ n ∧ n ≤ maxInt))

/-- An integer of 64 bits fits into 64 bits. -/
lemma fits_toInt (m : Int64) : Fits m.toInt := by
  have low := m.le_toInt
  have high := m.toInt_lt
  rw [Fits, minInt, maxInt]
  omega

/-- The number is this integer if everything on the way to it fits, and a binary64 number if not. -/
def Reaches (x : Number) (fits : Prop) (n : Int) : Prop :=
  (fits → ∃ m : Int64, x = int m ∧ m.toInt = n) ∧ (¬ fits → ∃ y, x = float y)

variable {a b : Number} {fits fits' : Prop} {m n : Int}

/-- A result that fits is reached, and any other is a float. -/
lemma ofInt?_reaches (n : Int) (other : Binary64) :
    Reaches ((ofInt? n).getD (float other)) (Fits n) n := by
  constructor
  · intro fits
    refine ⟨.ofInt n, ?_, Int64.toInt_ofInt_of_le fits.1 (Int.lt_add_one_of_le fits.2)⟩
    rw [ofInt?, if_pos (by rw [decide_eq_true fits.1, decide_eq_true fits.2]; rfl), Option.getD_some]
  · intro large
    refine ⟨other, ?_⟩
    rw [ofInt?, if_neg, Option.getD_none]
    rw [Bool.and_eq_true, decide_eq_true_eq, decide_eq_true_eq]
    exact large

/-- An integer of 64 bits is reached as it is. -/
lemma int_reaches (m : Int64) : Reaches (int m) True m.toInt :=
  ⟨fun _ => ⟨m, rfl, rfl⟩, fun never => absurd trivial never⟩

/-- What is asked for may be said in another way. -/
lemma Reaches.congr (h : Reaches a fits n) (same : fits ↔ fits') : Reaches a fits' n := by
  rwa [Reaches, ← same]

section Combine

variable {exact : Int → Int → Int} {rounded : Binary64 → Binary64 → Binary64}

/-- Two integers are combined exactly where the result fits, and else as floats. -/
lemma combine_int (m n : Int64) : combine exact rounded (int m) (int n) =
    (ofInt? (exact m.toInt n.toInt)).getD (.float (rounded (.ofInt m.toInt) (.ofInt n.toInt))) := by
  rw [combine]
  cases ofInt? (exact m.toInt n.toInt) <;> rfl

/-- Once a binary64 number has come up, the result is one. -/
lemma combine_float (h : (∃ x, a = float x) ∨ ∃ y, b = float y) :
    ∃ z, combine exact rounded a b = float z := by
  refine ⟨rounded a.toBinary64 b.toBinary64, ?_⟩
  rcases h with ⟨x, rfl⟩ | ⟨y, rfl⟩
  · rfl
  · cases a <;> rfl

/-- What one step reaches: it must fit itself, and so must everything on the way to both numbers. -/
lemma Reaches.combine (ha : Reaches a fits m) (hb : Reaches b fits' n) :
    Reaches (combine exact rounded a b) (fits ∧ fits' ∧ Fits (exact m n)) (exact m n) := by
  by_cases first : fits
  · by_cases second : fits'
    · obtain ⟨m, rfl, rfl⟩ := ha.1 first
      obtain ⟨n, rfl, rfl⟩ := hb.1 second
      rw [combine_int]
      apply (ofInt?_reaches _ _).congr
      rw [and_iff_right first, and_iff_right second]
    · exact ⟨fun all => absurd all.2.1 second, fun _ => combine_float (.inr (hb.2 second))⟩
  · exact ⟨fun all => absurd all.1 first, fun _ => combine_float (.inl (ha.2 first))⟩

/-- What a run from the left reaches: every result on the way must fit. -/
lemma foldl_reaches (first : Int64) (ns : List Int64) :
    Reaches ((ns.map int).foldl (Number.combine exact rounded) (int first))
      (∀ part, part <+: ns.map Int64.toInt → Fits (part.foldl exact first.toInt))
      ((ns.map Int64.toInt).foldl exact first.toInt) := by
  -- from the right: what the last integer adds is the only other result on the way
  induction ns using List.reverseRecOn with
  | nil =>
    apply (int_reaches first).congr
    rw [true_iff]
    rintro part none
    rw [List.prefix_nil.1 none]
    exact fits_toInt first
  | append_singleton ns n ih =>
    rw [List.map_append, List.map_append, List.foldl_append, List.foldl_append]
    apply (ih.combine (int_reaches n)).congr
    simp only [true_and, List.map_singleton, List.prefix_concat_iff]
    constructor
    · rintro ⟨before, last⟩ part (rfl | inside)
      · rw [List.foldl_append]
        exact last
      · exact before part inside
    · intro all
      refine ⟨fun part inside => all part (.inr inside), ?_⟩
      have last := all _ (.inl rfl)
      rwa [List.foldl_append] at last

/-- The same where the run begins with an integer that changes nothing. -/
lemma reduce_reaches (unit : Int) (neutral : ∀ n, exact unit n = n) (fits_unit : Fits unit)
    (first : Int64) (rest : List Int64) :
    Reaches ((rest.map int).foldl (Number.combine exact rounded) (int first))
      (∀ part, part <+: (first :: rest).map Int64.toInt → Fits (part.foldl exact unit))
      (((first :: rest).map Int64.toInt).foldl exact unit) := by
  rw [List.map_cons, List.foldl_cons, neutral]
  apply (foldl_reaches first rest).congr
  constructor
  · intro all part inside
    rcases List.prefix_cons_iff.1 inside with rfl | ⟨part, rfl, behind⟩
    · exact fits_unit
    · rw [List.foldl_cons, neutral]
      exact all part behind
  · intro all part inside
    have behind := all _ (List.prefix_cons_iff.2 (.inr ⟨part, rfl, inside⟩))
    rwa [List.foldl_cons, neutral] at behind

end Combine

/-- A negative is reached exactly where it fits. -/
lemma neg_reaches (m : Int64) : Reaches (neg (int m)) (Fits (-m.toInt)) (-m.toInt) :=
  ofInt?_reaches _ _

end Number

namespace Calculation

open Number (Fits Reaches)

/-- The exact result of integers. -/
def total : Calculation → List Int → Int
  | sum, ns => ns.sum
  | product, ns => ns.prod
  | difference, [n] => -n
  | difference, first :: rest => first - rest.sum
  | _, _ => 0

/-- The results on the way to the exact result, and this result. -/
def partials : Calculation → List Int → List Int
  | sum, ns => ns.inits.map List.sum
  | product, ns => ns.inits.map List.prod
  | difference, [n] => [-n]
  | difference, first :: rest => rest.inits.map List.sum ++ [first - rest.sum]
  | _, _ => []

/-- The calculations that are exact where integers are. -/
def exacts : List Calculation :=
  [sum, product, difference]

/-- The calculations that are exact are sums, products and differences. -/
lemma mem_exacts {c : Calculation} :
    c ∈ exacts ↔ c = sum ∨ c = product ∨ c = difference := by
  simp only [exacts, List.mem_cons, List.not_mem_nil, or_false]

/-- All first parts of a list are those that start it. -/
lemma forall_inits {ns : List Int} {total : List Int → Int} :
    (∀ n ∈ ns.inits.map total, Fits n) ↔ ∀ part, part <+: ns → Fits (total part) := by
  simp only [List.forall_mem_map, List.mem_inits]

/-- What a run of sums reaches. -/
lemma sum_reaches (first : Int64) (rest : List Int64) :
    let ns := (first :: rest).map Int64.toInt
    Reaches ((rest.map Number.int).foldl .add (.int first)) (∀ n ∈ ns.inits.map List.sum, Fits n)
      ns.sum := by
  intro ns
  have reaches : Reaches ((rest.map Number.int).foldl .add (.int first)) _ _ :=
    Number.reduce_reaches 0 Int.zero_add (by decide) first rest
  rw [forall_inits]
  simp only [List.sum_eq_foldl]
  exact reaches

/-- What a run of products reaches. -/
lemma product_reaches (first : Int64) (rest : List Int64) :
    let ns := (first :: rest).map Int64.toInt
    Reaches ((rest.map Number.int).foldl .mul (.int first)) (∀ n ∈ ns.inits.map List.prod, Fits n)
      ns.prod := by
  intro ns
  have reaches : Reaches ((rest.map Number.int).foldl .mul (.int first)) _ _ :=
    Number.reduce_reaches 1 Int.one_mul (by decide) first rest
  rw [forall_inits]
  simp only [List.prod_eq_foldl]
  exact reaches

/-- What a difference reaches: the sum of the others comes first. -/
lemma difference_reaches (first : Int64) (rest : List Int64) :
    let ns := (first :: rest).map Int64.toInt
    Reaches (subtractAll ((first :: rest).map Number.int)) (∀ n ∈ difference.partials ns, Fits n)
      (difference.total ns) := by
  cases rest with
  | nil =>
    apply (Number.neg_reaches first).congr
    exact List.forall_mem_singleton.symm
  | cons second rest =>
    have others := sum_reaches second rest
    apply ((Number.int_reaches first).combine others).congr
    rw [true_and]
    simp only [List.map_cons, partials, List.forall_mem_append, List.forall_mem_singleton]

/-- What a calculation with integers comes to. -/
lemma compute_reaches {c : Calculation} (mem : c ∈ exacts) {ns : List Int64} (some : ns ≠ []) :
    ∃ x, c.compute (ns.map .int) = Option.some x ∧
      Reaches x (∀ n ∈ c.partials (ns.map Int64.toInt), Fits n) (c.total (ns.map Int64.toInt)) := by
  obtain ⟨first, rest, rfl⟩ := List.exists_cons_of_ne_nil some
  rcases mem_exacts.1 mem with rfl | rfl | rfl
  · exact ⟨_, rfl, sum_reaches first rest⟩
  · exact ⟨_, rfl, product_reaches first rest⟩
  · exact ⟨_, rfl, difference_reaches first rest⟩

/-- The arguments are texts of these integers. -/
def AreIntegers (args : List String) (ns : List Int64) : Prop :=
  List.Forall₂ (fun arg n => Number.read? arg = some (.int n)) args ns

/-- Arguments that are integers are read as they are. -/
lemma AreIntegers.numbers {args : List String} {ns : List Int64} (h : AreIntegers args ns) :
    Reading.numbers args = .ok (ns.map .int) := by
  have each : args.mapM Reading.number = .ok (ns.map .int) := by
    induction h with
    | nil => rfl
    | cons here _ ih =>
      rw [List.mapM_cons, Reading.number_eq_ok.2 here]
      exact bind_eq_ok.2 ⟨_, rfl, bind_eq_ok.2 ⟨_, ih, rfl⟩⟩
  have stays : Number.promote (ns.map .int) = ns.map .int := by
    rw [Number.promote, if_neg]
    rw [List.any_map, List.any_eq_true]
    rintro ⟨n, -, float⟩
    cases float
  rw [Reading.numbers, each]
  exact congrArg Except.ok stays

variable {σ : Type} {it : Interpreter σ}

section Ways

variable {c : Calculation} {args : List String} {ns : List Int64}

/-- If every result on the way fits, the answer is the exact integer. -/
lemma answers_total (served : Served it) (mem : c ∈ exacts) (reads : AreIntegers args ns)
    (some : ns ≠ []) (fits : ∀ n ∈ c.partials (ns.map Int64.toInt), Fits n) :
    it.Answers c.name args (toString (c.total (ns.map Int64.toInt))) := by
  obtain ⟨x, made, reaches⟩ := compute_reaches mem some
  obtain ⟨m, rfl, same⟩ := reaches.1 fits
  rw [← same]
  exact answers_number served (number_eq_some.2 ⟨_, reads.numbers, made⟩)

/-- If a result on the way does not fit, the answer is made of a binary64 number. -/
lemma number_of_overflow (mem : c ∈ exacts) (reads : AreIntegers args ns) (some : ns ≠ [])
    (large : ∃ n ∈ c.partials (ns.map Int64.toInt), ¬ Fits n) :
    ∃ x, c.number args = Option.some (.float x) := by
  obtain ⟨n, inside, large⟩ := large
  obtain ⟨_, computed, reaches⟩ := compute_reaches mem some
  obtain ⟨x, rfl⟩ := reaches.2 fun fits => large (fits n inside)
  exact ⟨x, number_eq_some.2 ⟨_, reads.numbers, computed⟩⟩

/-- The exact sum or product of integers is the same in every order. -/
lemma total_eq_of_perm (mem : c ∈ exacts) (other : c ≠ difference) {ms ns : List Int}
    (order : ms.Perm ns) : c.total ms = c.total ns := by
  rcases mem_exacts.1 mem with rfl | rfl | rfl
  · exact order.sum_eq
  · exact order.prod_eq
  · exact absurd rfl other

end Ways

/-- Sums, products and differences of integers of 64 bits. If every result on the way is an integer of 64
bits, the answer is the exact integer. If not, it is the text of a binary64 number, which is never read
as an integer. The results on the way depend on the order, but sums and products of the same integers
have the same answer in any two orders in which they fit. -/
theorem integers_are_exact (served : Served it) {c : Calculation} (mem : c ∈ exacts)
    {args : List String} {ns : List Int64} (reads : AreIntegers args ns) (some : ns ≠ []) :
    let exact := ns.map Int64.toInt
    ((∀ n ∈ c.partials exact, Fits n) → it.Answers c.name args (toString (c.total exact))) ∧
    ((∃ n ∈ c.partials exact, ¬ Fits n) → ∃ x, c.number args = Option.some (.float x) ∧
      it.Answers c.name args (Number.float x).text ∧
      ∀ n, Number.read? (Number.float x).text ≠ Option.some (.int n)) ∧
    (c ≠ difference → ∀ args' ns', AreIntegers args' ns' → ns'.Perm ns →
      (∀ n ∈ c.partials (ns'.map Int64.toInt), Fits n) →
      it.Answers c.name args' (toString (c.total exact))) := by
  refine ⟨answers_total served mem reads some, fun large => ?_, ?_⟩
  · obtain ⟨x, made⟩ := number_of_overflow mem reads some large
    exact ⟨x, made, answers_number served made, fun n => Number.read?_text_float (number_sound made) n⟩
  · intro other args' ns' reads' order fits
    have filled : ns' ≠ [] := by
      rintro rfl
      exact some order.nil_eq.symm
    rw [← total_eq_of_perm mem other (order.map Int64.toInt)]
    exact answers_total served mem reads' filled fits

/-- With one taken away first, one can be added to the largest integer. -/
theorem largest_less_one_and_one : Served Console.interpreter ∧ sum ∈ exacts ∧
    AreIntegers ["9223372036854775807", "-1", "1"] [.maxValue, -1, 1] ∧
    [Int64.maxValue, -1, 1] ≠ [] ∧
    Console.interpreter.Answers "+" ["9223372036854775807", "-1", "1"] "9223372036854775807" := by
  have mem : sum ∈ exacts := List.mem_cons_self ..
  have reads : AreIntegers ["9223372036854775807", "-1", "1"] [.maxValue, -1, 1] :=
    .cons (by decide +kernel) (.cons (by decide +kernel) (.cons (by decide +kernel) .nil))
  obtain ⟨exact, -⟩ := integers_are_exact console_served mem reads (List.cons_ne_nil _ _)
  exact ⟨console_served, mem, reads, List.cons_ne_nil _ _, exact (by decide)⟩

/-- With one added first, the largest integer comes out as a binary64 number, though the exact sum is
the same. -/
theorem partial_overflow_is_kept :
    let sum args : Word Token := .substitution default (.literal default "+")
      (args.map (.literal default))
    (Word.arguments (Console.interpreter.expand 2)
        [sum ["9223372036854775807", "1", "-1"], sum ["9223372036854775807", "-1", "1"]]
        ⟨.initial, Console.start [] 0⟩).map (fun ended => ended.1.toOption) =
      some (some ["9.223372036854776e18", "9223372036854775807"]) ∧
    [9223372036854775807, 1, -1].sum = Number.maxInt := by
  decide +kernel

end Calculation

end Scriptlet
