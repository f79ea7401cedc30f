import Scriptlet.Proofs.Evaluation.Admission
import Scriptlet.Proofs.Library.Standard
import Scriptlet.Proofs.Numeric.Rounding

/-!
# Comparing numbers

The order of two numbers is looked at as binary64 numbers, but whether two integers are the same is
looked at exactly. The two agree unless the integers are different and the same binary64 number is
nearest to both (`Number.Merged`), which takes one of them to be beyond `2 ^ 53`. The rest follows
from the order of binary64 numbers being linear and from rounding keeping the order of integers.
-/

namespace Scriptlet

namespace Binary64

variable {x y : Binary64}

/-- How two numbers compare. -/
def order (x y : Binary64) : Ordering :=
  if x.lt y then .lt else if y.lt x then .gt else .eq

/-- Of two numbers, at most one is below the other. -/
lemma lt_asymm (h : x.lt y = true) : y.lt x = false := by
  cases x <;> cases y <;> simp_all [lt]
  omega

/-- Numbers have the same value if neither is below the other. -/
lemma eq_iff (hx : x ≠ nan) (hy : y ≠ nan) :
    x.eq y = true ↔ x.lt y = false ∧ y.lt x = false := by
  cases x with
  | nan => exact absurd rfl hx
  | infinite s =>
    cases y with
    | nan => exact absurd rfl hy
    | infinite t => cases s <;> cases t <;> decide
    | finite t b => cases s <;> simp [lt, eq]
  | finite s a =>
    cases y with
    | nan => exact absurd rfl hy
    | infinite t => cases t <;> simp [lt, eq]
    | finite t b =>
      simp only [lt, eq, beq_iff_eq, decide_eq_false_iff_not]
      omega

/-- To be less is to come first in the order. -/
lemma lt_eq_isLT (x y : Binary64) : x.lt y = (x.order y).isLT := by
  rw [order]
  cases x.lt y <;> cases y.lt x <;> rfl

/-- To be greater is to come last in the order. -/
lemma gt_eq_isGT (x y : Binary64) : y.lt x = (x.order y).isGT := by
  rw [order]
  cases below : x.lt y with
  | true => exact lt_asymm below
  | false => cases y.lt x <;> rfl

/-- Numbers other than `NaN` are equal if the order puts neither first. -/
lemma eq_eq_isEq (hx : x ≠ nan) (hy : y ≠ nan) : x.eq y = (x.order y).isEq := by
  rw [Bool.eq_iff_iff, eq_iff hx hy, order]
  cases x.lt y <;> cases y.lt x <;> decide

/-- Numbers other than `NaN` are at most one another if the order does not put them the other way
round. -/
lemma le_eq_isLE (hx : x ≠ nan) (hy : y ≠ nan) : x.le y = (x.order y).isLE := by
  rw [le, lt_eq_isLT, eq_eq_isEq hx hy]
  cases x.order y <;> rfl

/-- The order of two numbers taken the other way round. -/
lemma order_swap (x y : Binary64) : (x.order y).swap = y.order x := by
  rw [order, order]
  cases below : x.lt y with
  | true => rw [lt_asymm below]; rfl
  | false => cases y.lt x <;> rfl

/-- The same for at least. -/
lemma ge_eq_isGE (hx : x ≠ nan) (hy : y ≠ nan) : y.le x = (x.order y).isGE := by
  rw [le_eq_isLE hy hx, ← order_swap]
  cases x.order y <;> rfl

/-- A ratio is rounded to a number. -/
lemma ofRatio_ne_nan (negative : Bool) (num den : Nat) : ofRatio negative num den ≠ nan := by
  rw [ofRatio]
  split <;> exact nofun

/-- An integer is rounded to a number. -/
lemma ofInt_ne_nan (n : Int) : ofInt n ≠ nan := by
  rw [ofInt]
  exact ofRatio_ne_nan _ _ _

/-- The nearest number to a number of units with a sign is not below that to fewer. -/
lemma ofRatio_mono {a b : Nat} (le : a ≤ b) :
    (ofRatio false b 1).lt (ofRatio false a 1) = false ∧
      (ofRatio true a 1).lt (ofRatio true b 1) = false := by
  have rounded := roundUnits_mono Nat.one_pos le
  rw [ofRatio, ofRatio, ofRatio, ofRatio]
  constructor
  · split <;> split <;> simp [lt, signedUnits] <;> omega
  · split <;> split <;> simp [lt, signedUnits] <;> omega

/-- The nearest numbers to integers are in the order of the integers. -/
lemma ofInt_mono {m n : Int} (le : m ≤ n) : (ofInt n).lt (ofInt m) = false := by
  rw [ofInt, ofInt]
  by_cases low : m < 0
  · by_cases low' : n < 0
    · rw [decide_eq_true low, decide_eq_true low']
      exact (ofRatio_mono (Nat.mul_le_mul_right _ (by omega))).2
    · rw [decide_eq_true low, decide_eq_false low', ofRatio, ofRatio]
      split <;> split <;> simp [lt, signedUnits]
  · have low' : ¬ n < 0 := by omega
    rw [decide_eq_false low, decide_eq_false low']
    exact (ofRatio_mono (Nat.mul_le_mul_right _ (by omega))).1

/-- An integer of at most 53 binary digits is a number of the format. -/
lemma roundUnits_of_le {n : Nat} (le : n ≤ 2 ^ precision) :
    roundUnits (n * unitsPerOne) 1 = n * unitsPerOne := by
  obtain ⟨point, -, one, -, -⟩ := exists_powers
  apply roundUnits_of_dvd
  rw [one, Nat.pow_eq]
  rcases Nat.lt_or_eq_of_le le with lt | rfl
  · -- the last digit that is kept is behind the point or next to it, where the integer ends
    have digits : (n * 2 ^ point).log2 + 1 - precision ≤ point := by
      rcases Nat.eq_zero_or_pos n with rfl | pos
      · rw [Nat.zero_mul, Nat.log2_zero]
        exact Nat.le_trans (Nat.le_of_eq (by decide)) (Nat.zero_le point)
      · have nonzero : n * 2 ^ point ≠ 0 := Nat.ne_of_gt (Nat.mul_pos pos (Nat.pow_pos Nat.two_pos))
        have below : n * 2 ^ point < 2 ^ (precision + point) := by
          rw [Nat.pow_add]
          exact Nat.mul_lt_mul_of_pos_right lt (Nat.pow_pos Nat.two_pos)
        have few := (Nat.log2_lt nonzero).2 below
        omega
    exact Nat.dvd_trans (Nat.pow_dvd_pow 2 digits) (Nat.dvd_mul_left _ n)
  · rw [← Nat.pow_add]
    exact lastDigit_dvd_pow (Nat.le_of_eq Nat.log2_two_pow)

/-- An integer of at most 53 binary digits, as a number of the format, is that many ones. -/
lemma ofInt_of_le {n : Int} (le : n.natAbs ≤ 2 ^ precision) :
    ofInt n = finite (n < 0) (n.natAbs * unitsPerOne) := by
  obtain ⟨point, top, one, overflow, far, -⟩ := exists_powers
  have small : n.natAbs * unitsPerOne < overflowUnits := by
    rw [one, overflow, Nat.pow_eq, Nat.pow_eq]
    calc n.natAbs * 2 ^ point ≤ 2 ^ precision * 2 ^ point := Nat.mul_le_mul_right _ le
      _ = 2 ^ (precision + point) := (Nat.pow_add 2 _ _).symm
      _ < 2 ^ top := Nat.pow_lt_pow_right Nat.one_lt_two far
  rw [ofInt, ofRatio, roundUnits_of_le le]
  exact if_pos small

/-- The signed units of an integer's size are the integer times the units. -/
lemma signedUnits_natAbs (n : Int) (units : Nat) :
    signedUnits (n < 0) (n.natAbs * units) = n * units := by
  rw [signedUnits]
  by_cases low : n < 0
  · have magnitude : (n.natAbs : Int) = -n := by omega
    rw [decide_eq_true low, if_pos rfl, Nat.cast_mul, magnitude]
    ring
  · have magnitude : (n.natAbs : Int) = n := by omega
    rw [decide_eq_false low, if_neg Bool.false_ne_true, Nat.cast_mul, magnitude]

/-- Integers of at most 53 binary digits have the same value if they are the same. -/
lemma ofInt_eq_iff {m n : Int} (hm : m.natAbs ≤ 2 ^ precision) (hn : n.natAbs ≤ 2 ^ precision) :
    (ofInt m).eq (ofInt n) = true ↔ m = n := by
  have positive : (unitsPerOne : Int) ≠ 0 := Int.natCast_ne_zero.2 (Nat.ne_of_gt unitsPerOne_pos)
  rw [ofInt_of_le hm, ofInt_of_le hn, eq, signedUnits_natAbs, signedUnits_natAbs, beq_iff_eq]
  exact Int.mul_eq_mul_right_iff positive

end Binary64

namespace Number

/-- The numbers are different integers to which the same binary64 number is nearest. -/
def Merged (x y : Number) : Prop :=
  ∃ m n, x = int m ∧ y = int n ∧ m ≠ n ∧ x.toBinary64.eq y.toBinary64 = true

/-- One of two integers that are merged has more than 53 binary digits. -/
lemma Merged.beyond {x y : Number} (h : Merged x y) : ∃ m n, x = int m ∧ y = int n ∧
    (2 ^ Binary64.precision < m.toInt.natAbs ∨ 2 ^ Binary64.precision < n.toInt.natAbs) := by
  obtain ⟨m, n, rfl, rfl, differ, same⟩ := h
  refine ⟨m, n, rfl, rfl, ?_⟩
  by_contra small
  rw [not_or, Nat.not_lt, Nat.not_lt] at small
  exact differ (Int64.toInt_inj.1 ((Binary64.ofInt_eq_iff small.1 small.2).1 same))

end Number

namespace Binary64

/-- Only `NaN` differs from itself. -/
lemma eq_self {x : Binary64} (hx : x ≠ nan) : x.eq x = true := by
  have irrefl : x.lt x = false := by
    cases below : x.lt x with
    | true => exact absurd below (by rw [lt_asymm below]; exact Bool.false_ne_true)
    | false => rfl
  exact (eq_iff hx hx).2 ⟨irrefl, irrefl⟩

end Binary64

/-- A numeral reads as a number. -/
lemma Decimal.toBinary64_ne_nan (d : Decimal) : d.toBinary64 ≠ .nan := by
  rw [toBinary64]
  split
  · exact nofun
  · split
    · exact nofun
    · split
      · exact nofun
      · dsimp only
        split <;> exact nofun

namespace Number

/-- An integer that fits has a nearest number. -/
lemma toBinary64_ofInt?_ne_nan {n : Int} {x : Number} (h : ofInt? n = some x) :
    x.toBinary64 ≠ .nan := by
  rw [ofInt?] at h
  split at h
  · cases h
    exact Binary64.ofInt_ne_nan _
  · cases h

/-- A text that reads as a number does not read as no number. -/
lemma toBinary64_ne_nan {s : String} {x : Number} (h : read? s = some x) : x.toBinary64 ≠ .nan := by
  obtain ⟨numeral, -, read⟩ := Option.map_eq_some_iff.1 h
  subst read
  cases whole : (if numeral.integral then ofInt? numeral.value.toInt else none) with
  | some n =>
    split at whole
    · exact toBinary64_ofInt?_ne_nan whole
    · cases whole
  | none => exact numeral.value.toBinary64_ne_nan

/-- Two numbers read for a comparison keep their values, and are the same if their values are and
they are not merged. -/
lemma exists_promote {x y : Number} (hx : x.toBinary64 ≠ .nan) :
    ∃ p q, promote [x, y] = [p, q] ∧ p.toBinary64 = x.toBinary64 ∧ q.toBinary64 = y.toBinary64 ∧
      (p.same q = true ↔ x.toBinary64.eq y.toBinary64 = true ∧ ¬ Merged x y) := by
  rcases x with m | x <;> rcases y with n | y
  · refine ⟨int m, int n, rfl, rfl, rfl, ?_⟩
    rw [same, beq_iff_eq]
    constructor
    · rintro rfl
      refine ⟨Binary64.eq_self hx, ?_⟩
      rintro ⟨_, _, ⟨⟩, ⟨⟩, differ, -⟩
      exact differ rfl
    · rintro ⟨same, apart⟩
      by_contra differ
      exact apart ⟨m, n, rfl, rfl, differ, same⟩
  all_goals
    refine ⟨_, _, rfl, rfl, rfl, ?_⟩
    exact ⟨fun same => ⟨same, nofun⟩, And.left⟩

/-- Integers that are not merged compare as their nearest binary64 numbers do. -/
lemma order_eq_compare {m n : Int64} (apart : ¬ Merged (int m) (int n)) :
    (int m).toBinary64.order (int n).toBinary64 = compare m.toInt n.toInt := by
  have hm : (int m).toBinary64 ≠ .nan := Binary64.ofInt_ne_nan _
  have hn : (int n).toBinary64 ≠ .nan := Binary64.ofInt_ne_nan _
  have differ : m ≠ n → ¬ (int m).toBinary64.eq (int n).toBinary64 = true :=
    fun differ same => apart ⟨m, n, rfl, rfl, differ, same⟩
  rw [Binary64.eq_iff hm hn] at differ
  rcases Int.lt_trichotomy m.toInt n.toInt with lt | same | gt
  · have not_above : (int n).toBinary64.lt (int m).toBinary64 = false :=
      Binary64.ofInt_mono (Int.le_of_lt lt)
    have below : (int m).toBinary64.lt (int n).toBinary64 = true := by
      by_contra not_below
      exact differ (fun e => by rw [e] at lt; omega) ⟨Bool.eq_false_of_not_eq_true not_below, not_above⟩
    rw [Binary64.order, if_pos below, compare_lt_iff_lt.2 lt]
  · obtain rfl := Int64.toInt_inj.1 same
    have irrefl := ((Binary64.eq_iff hm hm).1 (Binary64.eq_self hm)).1
    rw [Binary64.order, if_neg (by rw [irrefl]; exact Bool.false_ne_true),
      if_neg (by rw [irrefl]; exact Bool.false_ne_true), compare_eq_iff_eq.2 rfl]
  · have not_below : (int m).toBinary64.lt (int n).toBinary64 = false :=
      Binary64.ofInt_mono (Int.le_of_lt gt)
    have above : (int n).toBinary64.lt (int m).toBinary64 = true := by
      by_contra not_above
      exact differ (fun e => by rw [e] at gt; omega) ⟨not_below, Bool.eq_false_of_not_eq_true not_above⟩
    rw [Binary64.order, not_below, if_neg Bool.false_ne_true, if_pos above, compare_gt_iff_gt.2 gt]

end Number

/-- A call of an expansion of this name with these arguments gives this text and changes nothing,
unless a definition takes its place, the run was stopped or too many calls are in progress. -/
def Interpreter.Answers {σ : Type} (it : Interpreter σ) (name : String) (args : List String)
    (answer : String) : Prop :=
  ∀ run expand rounds (site : CallSite) (s : State σ), site.kind = .expansion →
    s.context.definition? .expansion name = none → s.context.isStopped = false →
    (it.limits.maxCallDepth = 0 ∨ s.context.scopes.depth < it.limits.maxCallDepth) →
    ∃ host, it.serve run expand rounds site name args s = some (.ok answer, { s with host := host })

open Evaluation

namespace Library

/-- The comparisons of the base library, and what each says of an order. -/
def orderTests : List (String × (Ordering → Bool)) :=
  [("<", Ordering.isLT), ("eq?", Ordering.isEq), (">", Ordering.isGT), ("<=", Ordering.isLE),
    (">=", Ordering.isGE)]

/-- The calls of these names are served by the comparisons of the base library. -/
def Compares {σ : Type} (it : Interpreter σ) : Prop :=
  ∀ test ∈ orderTests,
    Chain.handlerFor? (it.registry.chain .expansion) test.1 = some comparison.toHandler

section

variable {σ : Type} {it : Interpreter σ} {name a b : String} {args : List String} {x y : Number}

/-- The handler of a pure expansion answers, and only the observer is told. -/
lemma dispatch_pureExpansion {callbacks : Callbacks σ} {answer : Call → Except Fault String}
    {text : String} {run : Node Token → Evaluation σ Unit} {expand : Expand σ} {rounds : Nat}
    {site : CallSite} {call : ActiveCall} {s : State σ}
    (served : Chain.handlerFor? (it.registry.chain call.kind) call.name = some callbacks.toHandler)
    (found : callbacks.find? call.name = some (pureExpansion answer))
    (answers : answer ⟨call, site.node, site.body⟩ = .ok text) :
    it.dispatch run expand rounds site none call s =
      some (.ok (some text), { s with host := it.observe (.handler call) s.context s.host }) := by
  have invoked : callbacks.toHandler.invoke ⟨call, site.node, site.body⟩ = .done (some text) := by
    rw [Callbacks.invoke_of_find? found]
    show (Action.ofExcept (answer _) >>= fun text => pure (some text)) = _
    rw [answers]
    rfl
  rw [Interpreter.dispatch, served]
  show it.handle run expand rounds site call callbacks.toHandler s = _
  rw [Interpreter.handle, invoked]
  rfl

/-- A call of a pure expansion gives its answer. -/
lemma answers_of_pureExpansion {callbacks : Callbacks σ} {answer : Call → Except Fault String}
    {text : String} (named : name ≠ "")
    (served : Chain.handlerFor? (it.registry.chain .expansion) name = some callbacks.toHandler)
    (found : callbacks.find? name = some (pureExpansion answer))
    (answers : ∀ call : Call, call.args = args → answer call = .ok text) :
    it.Answers name args text := by
  intro run expand rounds site s kind undefined goes_on below
  have admits : it.Admits .expansion name s := ⟨named, undefined, goes_on, below⟩
  rw [← kind] at served admits
  let call : ActiveCall := ⟨name, site.kind, args, site.location⟩
  let pushed := withScopes (·.push (.ofCall call false)) s
  refine ⟨it.observe (.handler call) pushed.context s.host, ?_⟩
  have dispatched : it.dispatch run expand rounds site none call pushed =
      some (.ok (some text), { pushed with host := it.observe (.handler call) pushed.context s.host }) :=
    dispatch_pureExpansion served found (answers _ rfl)
  rw [Interpreter.serve_admitted admits, bind_of_ok (inFrame_of_ok dispatched)]
  rfl

/-- A call that was given two arguments has the two it asks for. -/
lemma requireArgs_two {call : Call} (args : call.args = [a, b]) : call.requireArgs 2 = .ok () := by
  rw [Call.requireArgs, args]
  rfl

/-- The numbers that two texts stand for, read for a comparison. -/
lemma numbers_pair (hx : Number.read? a = some x) (hy : Number.read? b = some y) :
    Reading.numbers [a, b] = .ok (Number.promote [x, y]) := by
  have first : Reading.number a = .ok x := by rw [Reading.number, hx]
  have second : Reading.number b = .ok y := by rw [Reading.number, hy]
  rw [Reading.numbers, List.mapM_cons, first, List.mapM_cons, second]
  rfl

/-- Two numbers are compared as binary64 numbers. -/
lemma compare_pair (op : Binary64 → Binary64 → Bool) (hx : Number.read? a = some x)
    (hy : Number.read? b = some y) {call : Call} (args : call.args = [a, b]) :
    compare op call = .ok (Reading.ofBool (op x.toBinary64 y.toBinary64)) := by
  obtain ⟨p, q, promoted, first, second, -⟩ :=
    Number.exists_promote (y := y) (Number.toBinary64_ne_nan hx)
  have numbers : twoNumbers call = .ok (p, q) := by
    rw [twoNumbers, requireArgs_two args, args, numbers_pair hx hy, promoted]
    rfl
  rw [compare, numbers, ← first, ← second]
  rfl

/-- Two numbers are equal if they are the same once both are read for a comparison. -/
lemma equal_pair (hx : Number.read? a = some x) (hy : Number.read? b = some y) {p q : Number}
    (promoted : Number.promote [x, y] = [p, q]) {call : Call} (args : call.args = [a, b]) :
    equal call = .ok (p.same q) := by
  rw [equal, requireArgs_two args, args]
  dsimp only
  rw [numbers_pair hx hy, promoted]
  rfl

/-- Every comparison but that for equality answers what it says of the order of two numbers as
binary64 numbers. -/
lemma answers_order (compares : Compares it) (hx : Number.read? a = some x)
    (hy : Number.read? b = some y) {test : String × (Ordering → Bool)} (mem : test ∈ orderTests)
    (other : test.1 ≠ "eq?") :
    it.Answers test.1 [a, b] (Reading.ofBool (test.2 (x.toBinary64.order y.toBinary64))) := by
  have nan := Number.toBinary64_ne_nan hx
  have nan' := Number.toBinary64_ne_nan hy
  have served := compares test mem
  have answers : ∀ op, op x.toBinary64 y.toBinary64 = test.2 (x.toBinary64.order y.toBinary64) →
      test.1 ≠ "" →
      (comparison : Callbacks σ).find? test.1 = some (pureExpansion (compare op)) →
      it.Answers test.1 [a, b] (Reading.ofBool (test.2 (x.toBinary64.order y.toBinary64))) := by
    intro op same named found
    refine answers_of_pureExpansion named served found fun call args => ?_
    rw [compare_pair op hx hy args, same]
  simp only [orderTests, List.mem_cons, List.not_mem_nil, or_false] at mem
  rcases mem with rfl | rfl | rfl | rfl | rfl
  · exact answers Binary64.lt (Binary64.lt_eq_isLT _ _) (by decide) rfl
  · exact absurd rfl other
  · exact answers (fun x y => y.lt x) (Binary64.gt_eq_isGT _ _) (by decide) rfl
  · exact answers Binary64.le (Binary64.le_eq_isLE nan nan') (by decide) rfl
  · exact answers (fun x y => y.le x) (Binary64.ge_eq_isGE nan nan') (by decide) rfl

/-- Two numbers are answered to be equal if they have the same value and are not merged. -/
lemma answers_equal (compares : Compares it) (hx : Number.read? a = some x)
    (hy : Number.read? b = some y) : ∃ same, it.Answers "eq?" [a, b] (Reading.ofBool same) ∧
      (same = true ↔ x.toBinary64.order y.toBinary64 = .eq ∧ ¬ Number.Merged x y) := by
  obtain ⟨p, q, promoted, -, -, same⟩ :=
    Number.exists_promote (y := y) (Number.toBinary64_ne_nan hx)
  refine ⟨p.same q, ?_, ?_⟩
  · have served := compares ("eq?", Ordering.isEq) (by simp [orderTests])
    refine answers_of_pureExpansion (by decide) served rfl fun call args => ?_
    rw [equal_pair hx hy promoted args]
    rfl
  · rw [same, Binary64.eq_eq_isEq (Number.toBinary64_ne_nan hx) (Number.toBinary64_ne_nan hy),
      Ordering.isEq_iff_eq_eq]

/-- The comparisons of two numbers agree with each other: they are what one order of the two says of
them, which is that of the integers if they are integers of 64 bits. The exception are two different
integers to which the same binary64 number is nearest, so that one of them is beyond `2 ^ 53`: they
are not equal, and neither is below the other. -/
theorem comparisons_consistent (compares : Compares it) (hx : Number.read? a = some x)
    (hy : Number.read? b = some y) :
    (¬ Number.Merged x y → ∃ order : Ordering,
      (∀ test ∈ orderTests, it.Answers test.1 [a, b] (Reading.ofBool (test.2 order))) ∧
      ∀ m n, x = .int m → y = .int n → order = Ord.compare m.toInt n.toInt) ∧
    (Number.Merged x y →
      (∀ name ∈ ["<", "eq?", ">"], it.Answers name [a, b] (Reading.ofBool false)) ∧
      (∀ name ∈ ["<=", ">="], it.Answers name [a, b] (Reading.ofBool true)) ∧
      ∃ m n, x = .int m ∧ y = .int n ∧
        (2 ^ Binary64.precision < m.toInt.natAbs ∨ 2 ^ Binary64.precision < n.toInt.natAbs)) := by
  have order : ∀ test ∈ orderTests, test.1 ≠ "eq?" → it.Answers test.1 [a, b]
      (Reading.ofBool (test.2 (x.toBinary64.order y.toBinary64))) :=
    fun test mem other => answers_order compares hx hy mem other
  obtain ⟨same, equal, same_iff⟩ := answers_equal compares hx hy
  constructor
  · intro apart
    refine ⟨x.toBinary64.order y.toBinary64, fun test mem => ?_, ?_⟩
    · by_cases other : test.1 = "eq?"
      · simp only [orderTests, List.mem_cons, List.not_mem_nil, or_false] at mem
        obtain rfl : test = ("eq?", Ordering.isEq) := by
          rcases mem with rfl | rfl | rfl | rfl | rfl <;> first | rfl | exact absurd other (by decide)
        have is_eq : same = (x.toBinary64.order y.toBinary64).isEq := by
          rw [Bool.eq_iff_iff, same_iff, Ordering.isEq_iff_eq_eq]
          exact and_iff_left apart
        rw [is_eq] at equal
        exact equal
      · exact order test mem other
    · rintro m n rfl rfl
      exact Number.order_eq_compare apart
  · intro merged
    have tie : x.toBinary64.order y.toBinary64 = .eq := by
      obtain ⟨m, n, rfl, rfl, -, value⟩ := merged
      rwa [Binary64.eq_eq_isEq (Number.toBinary64_ne_nan hx) (Number.toBinary64_ne_nan hy),
        Ordering.isEq_iff_eq_eq] at value
    have unequal : same = false := by
      rw [Bool.eq_false_iff, ne_eq, same_iff]
      exact fun h => h.2 merged
    rw [tie] at order
    rw [unequal] at equal
    refine ⟨?_, ?_, merged.beyond⟩
    · intro name mem
      simp only [List.mem_cons, List.not_mem_nil, or_false] at mem
      rcases mem with rfl | rfl | rfl
      · exact order ("<", Ordering.isLT) (by simp [orderTests]) (by decide)
      · exact equal
      · exact order (">", Ordering.isGT) (by simp [orderTests]) (by decide)
    · intro name mem
      simp only [List.mem_cons, List.not_mem_nil, or_false] at mem
      rcases mem with rfl | rfl
      · exact order ("<=", Ordering.isLE) (by simp [orderTests]) (by decide)
      · exact order (">=", Ordering.isGE) (by simp [orderTests]) (by decide)

end

/-- The comparisons of the command line are those of the base library. -/
lemma console_compares : Compares Console.interpreter := by
  intro test mem
  simp only [orderTests, List.mem_cons, List.not_mem_nil, or_false] at mem
  rcases mem with rfl | rfl | rfl | rfl | rfl <;> rfl

/-- What the comparisons answer to small integers is what they are. -/
theorem two_below_ten : ¬ Number.Merged (.int 2) (.int 10) ∧
    ∀ test ∈ orderTests,
      Console.interpreter.Answers test.1 ["2", "10"] (Reading.ofBool (test.2 .lt)) := by
  have apart : ¬ Number.Merged (.int 2) (.int 10) := by
    rintro ⟨_, _, ⟨⟩, ⟨⟩, -, same⟩
    exact absurd same (by decide +kernel)
  obtain ⟨order, answers, integers⟩ :=
    (comparisons_consistent console_compares (a := "2") (b := "10") (by decide +kernel)
      (by decide +kernel)).1 apart
  have below : order = .lt := integers 2 10 rfl rfl
  exact ⟨apart, below ▸ answers⟩

/-- Of these two integers none is below the other and they are not equal, but the first is not above
the second. -/
theorem large_integers_incomparable :
    let compared name : Word Token := .substitution default (.literal default name)
      [.literal default "9007199254740992", .literal default "9007199254740993"]
    (Word.arguments (Console.interpreter.expand 2) (["<", "eq?", ">", "<="].map compared)
      ⟨.initial, Console.start [] 0⟩).map (fun ended => ended.1.toOption) =
        some (some ["0", "0", "0", "1"]) := by
  decide +kernel

end Library

end Scriptlet
