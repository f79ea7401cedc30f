import Scriptlet.Proofs.Checked.Upheld
import Scriptlet.Proofs.Numeric.Comparison

/-!
# What the base library calculates

Each expansion that calculates reads all its arguments as numbers, makes one number of them and answers
with the text of that, or fails (`Calculation.answer_eq_ok_iff`).
-/

namespace Scriptlet

/-- The expansions that calculate. -/
inductive Calculation where
  | toInt
  | toFloat
  | sum
  | product
  | difference
  | quotient
  | floorQuotient
  | remainder
  deriving DecidableEq, Repr

namespace Calculation

variable {σ : Type}

/-- The name under which it is called. -/
def name : Calculation → String
  | toInt => "toint"
  | toFloat => "tofloat"
  | sum => "+"
  | product => "*"
  | difference => "-"
  | quotient => "/"
  | floorQuotient => "//"
  | remainder => "%"

/-- The answer of the expansion. -/
def answer : Calculation → Call → Except Fault String
  | toInt => Library.unary .toInt
  | toFloat => Library.unary .toFloat
  | sum => Library.fold .add
  | product => Library.fold .mul
  | difference => Library.subtract
  | quotient => Library.divide Number.div
  | floorQuotient => Library.divide Number.floorDiv
  | remainder => Library.modulo

/-- Changes a number if it is the only one. -/
def ofOne (op : Number → Number) : List Number → Option Number
  | [n] => some (op n)
  | _ => none

/-- One number is calculated from one number. -/
lemma ofOne_eq_some {op : Number → Number} {numbers : List Number} {n : Number} :
    ofOne op numbers = some n ↔ ∃ m, numbers = [m] ∧ n = op m := by
  constructor
  · intro made
    unfold ofOne at made
    split at made
    · exact ⟨_, rfl, (Option.some.inj made).symm⟩
    · cases made
  · rintro ⟨m, rfl, rfl⟩
    rfl

/-- Subtracts the sum of the others from the first number, if there is one. -/
def ofDifference : List Number → Option Number
  | [] => none
  | first :: rest => some (Library.subtractAll (first :: rest))

/-- Divides the first of at least two numbers by the product of the others, if that is possible. -/
def ofDivided (op : Number → Number → Except DivisionFault Number) : List Number → Option Number
  | first :: second :: rest => (op first (rest.foldl .mul second)).toOption
  | _ => none

/-- Divides the first of two numbers by the second, if that is possible. -/
def ofTwo (op : Number → Number → Except DivisionFault Number) : List Number → Option Number
  | [a, b] => (op a b).toOption
  | _ => none

/-- The number that is made of numbers, if there are as many as it takes and a division has a
result. -/
def compute : Calculation → List Number → Option Number
  | toInt => ofOne .toInt
  | toFloat => ofOne .toFloat
  | sum => Library.reduce .add
  | product => Library.reduce .mul
  | difference => ofDifference
  | quotient => ofDivided Number.div
  | floorQuotient => ofDivided Number.floorDiv
  | remainder => ofTwo Number.modulo

/-- The number that is made of arguments, if all of them are numbers. -/
def number (c : Calculation) (args : List String) : Option Number :=
  (Reading.numbers args).toOption.bind c.compute

/-- The base library answers to the name of every calculation. -/
lemma find?_name (c : Calculation) :
    (Library.arithmetic : Callbacks σ).find? c.name = some (Library.pureExpansion c.answer) := by
  cases c <;> rfl

/-- No calculation goes without a name. -/
lemma name_ne_empty (c : Calculation) : c.name ≠ "" := by
  cases c <;> decide

end Calculation

section Outcome

variable {ε α β : Type} {x : Except ε α}

/-- Both parts of a computation must go through. -/
lemma bind_eq_ok {f : α → Except ε β} {b : β} :
    (x >>= f) = .ok b ↔ ∃ a, x = .ok a ∧ f a = .ok b := by
  cases x with
  | ok a => exact ⟨fun h => ⟨a, rfl, h⟩, fun ⟨_, same, h⟩ => Except.ok.inj same ▸ h⟩
  | error e => exact ⟨nofun, fun ⟨_, same, _⟩ => nomatch same⟩

/-- A value is an answer. -/
lemma pure_eq_ok {a b : α} : (pure a : Except ε α) = .ok b ↔ b = a :=
  ⟨fun same => (Except.ok.inj same).symm, fun same => same ▸ rfl⟩

/-- What is left of a computation without its fault is its answer. -/
lemma toOption_eq_some {a : α} : x.toOption = some a ↔ x = .ok a := by
  cases x with
  | ok b => exact ⟨fun same => Option.some.inj same ▸ rfl, fun same => Except.ok.inj same ▸ rfl⟩
  | error e => exact ⟨nofun, nofun⟩

end Outcome

namespace Call

variable {call : Call} {count : Nat}

/-- The number of arguments must be the one that is asked for. -/
lemma requireArgs_eq_ok : call.requireArgs count = .ok () ↔ call.args.length = count :=
  ⟨length_of_requireArgs, fun same => if_pos same⟩

/-- The number of arguments must not be lower than the one that is asked for. -/
lemma requireMinArgs_eq_ok : call.requireMinArgs count = .ok () ↔ count ≤ call.args.length :=
  ⟨le_of_requireMinArgs, fun le => if_pos le⟩

end Call

namespace Reading

variable {text : String} {n : Number}

/-- A text is a number if it reads as one. -/
lemma number_eq_ok : number text = .ok n ↔ Number.read? text = some n := by
  rw [number]
  cases Number.read? text with
  | none =>
    constructor <;>
      · intro same
        cases same
  | some m => rw [Except.ok.injEq, Option.some.injEq]

/-- A single number is read as it is. -/
lemma numbers_singleton : numbers [text] = .ok [n] ↔ number text = .ok n := by
  have stays (m : Number) : Number.promote [m] = [m] := by
    cases m <;> rfl
  rw [numbers, List.mapM_cons]
  cases number text with
  | error fault =>
    constructor <;>
      · intro same
        cases same
  | ok m =>
    show Except.ok (Number.promote [m]) = _ ↔ _
    rw [stays, Except.ok.injEq, Except.ok.injEq, List.cons.injEq, and_iff_left rfl]

end Reading

namespace Library

variable {call : Call} {text : String}

/-- Where so many arguments are asked for, so many numbers are read. -/
lemma numbers_of_required {count : Nat} {numbers : List Number}
    (read : Reading.numbers call.args = .ok numbers) :
    (call.requireArgs count = .ok () ↔ numbers.length = count) ∧
      (call.requireMinArgs count = .ok () ↔ count ≤ numbers.length) := by
  rw [Reading.length_numbers read]
  exact ⟨Call.requireArgs_eq_ok, Call.requireMinArgs_eq_ok⟩

/-- The text is that of the number that is made of the arguments. -/
def Made (compute : List Number → Option Number) (args : List String) (text : String) : Prop :=
  ∃ numbers, Reading.numbers args = .ok numbers ∧ ∃ n, compute numbers = some n ∧ text = n.text

/-- A callback that counts its arguments and reads them as numbers answers with the number that is made
of them if it does so with every so many numbers, and nothing is made of fewer. -/
lemma required_eq_ok {count : Nat} {next : List Number → Except Fault String}
    {compute : List Number → Option Number}
    (answers : ∀ numbers, count ≤ numbers.length →
      (next numbers = .ok text ↔ ∃ n, compute numbers = some n ∧ text = n.text))
    (enough : ∀ {numbers n}, compute numbers = some n → count ≤ numbers.length) :
    (do
      call.requireMinArgs count
      let numbers ← Reading.numbers call.args
      next numbers) = .ok text ↔ Made compute call.args text := by
  rw [bind_eq_ok]
  constructor
  · rintro ⟨_, required, succeeds⟩
    obtain ⟨numbers, read, answered⟩ := bind_eq_ok.1 succeeds
    have many := (numbers_of_required read).2.1 required
    exact ⟨numbers, read, (answers numbers many).1 answered⟩
  · rintro ⟨numbers, read, n, made, same⟩
    have many := enough made
    have answered := (answers numbers many).2 ⟨n, made, same⟩
    exact ⟨(), (numbers_of_required read).2.2 many, bind_eq_ok.2 ⟨numbers, read, answered⟩⟩

/-- A call with one number is answered by what is calculated from it. -/
lemma unary_eq_ok {op : Number → Number} :
    unary op call = .ok text ↔ Made (Calculation.ofOne op) call.args text := by
  have first {arg : String} (only : call.args = [arg]) : call.arg 0 = .ok arg := by
    rw [Call.arg, only]
    rfl
  rw [unary, bind_eq_ok]
  constructor
  · rintro ⟨_, required, succeeds⟩
    obtain ⟨arg, only⟩ := List.length_eq_one_iff.1 (Call.requireArgs_eq_ok.1 required)
    obtain ⟨_, found, succeeds⟩ := bind_eq_ok.1 succeeds
    obtain ⟨n, read, answers⟩ := bind_eq_ok.1 succeeds
    cases (first only).symm.trans found
    refine ⟨[n], ?_, op n, rfl, pure_eq_ok.1 answers⟩
    rw [only]
    exact Reading.numbers_singleton.2 read
  · rintro ⟨numbers, read, n, made, rfl⟩
    obtain ⟨m, rfl, rfl⟩ := Calculation.ofOne_eq_some.1 made
    have required := (numbers_of_required read).1.2 rfl
    obtain ⟨arg, only⟩ := List.length_eq_one_iff.1 (Call.requireArgs_eq_ok.1 required)
    rw [only] at read
    have number := Reading.numbers_singleton.1 read
    exact ⟨(), required, bind_eq_ok.2 ⟨arg, first only, bind_eq_ok.2 ⟨m, number, rfl⟩⟩⟩

/-- Where a number is made, the answer is its text. -/
lemma pure_text_eq_ok {compute : List Number → Option Number} {numbers : List Number} {n : Number}
    (made : compute numbers = some n) : (pure n.text : Except Fault String) = .ok text ↔
      ∃ m, compute numbers = some m ∧ text = m.text := by
  rw [pure_eq_ok, made]
  constructor
  · exact fun same => ⟨n, rfl, same⟩
  · rintro ⟨m, again, same⟩
    cases Option.some.inj again
    exact same

/-- What cannot be calculated from nothing takes a number. -/
lemma length_pos_of_made {compute : List Number → Option Number} {numbers : List Number}
    {n : Number} (none : compute [] = none) (made : compute numbers = some n) :
    1 ≤ numbers.length := by
  cases numbers with
  | nil =>
    rw [none] at made
    cases made
  | cons => exact Nat.succ_pos _

/-- A call with any numbers is answered by what they come to one after the other. -/
lemma fold_eq_ok {op : Number → Number → Number} :
    fold op call = .ok text ↔ Made (reduce op) call.args text := by
  rw [fold]
  apply required_eq_ok
  · intro numbers one
    obtain ⟨first, rest, rfl⟩ := List.exists_cons_of_length_pos one
    exact pure_text_eq_ok rfl
  · exact length_pos_of_made rfl

/-- A difference is answered as it is calculated. -/
lemma subtract_eq_ok : subtract call = .ok text ↔ Made Calculation.ofDifference call.args text := by
  rw [subtract]
  apply required_eq_ok
  · intro numbers one
    obtain ⟨first, rest, rfl⟩ := List.exists_cons_of_length_pos one
    exact pure_text_eq_ok rfl
  · exact length_pos_of_made rfl

/-- A division is answered where it has a result. -/
lemma ofDivision_eq_ok {result : Except DivisionFault Number} {n : Number} :
    ofDivision result = .ok n ↔ result.toOption = some n := by
  cases result with
  | ok m => exact ⟨fun same => Except.ok.inj same ▸ rfl, fun same => Option.some.inj same ▸ rfl⟩
  | error fault => exact ⟨nofun, nofun⟩

/-- A division is answered as it is calculated. -/
lemma divide_eq_ok {op : Number → Number → Except DivisionFault Number} :
    divide op call = .ok text ↔ Made (Calculation.ofDivided op) call.args text := by
  rw [divide]
  apply required_eq_ok
  · rintro (_ | ⟨first, _ | ⟨second, rest⟩⟩) two
    · cases two
    · exact absurd two (Nat.lt_irrefl 1)
    · rw [bind_eq_ok]
      exact exists_congr fun n => and_congr ofDivision_eq_ok pure_eq_ok
  · rintro (_ | ⟨first, _ | ⟨second, rest⟩⟩) n made
    · cases made
    · cases made
    · exact Nat.le_add_left 2 _

/-- Two numbers are what two arguments read as. -/
lemma twoNumbers_eq_ok {a b : Number} :
    twoNumbers call = .ok (a, b) ↔ Reading.numbers call.args = .ok [a, b] := by
  rw [twoNumbers, bind_eq_ok]
  constructor
  · rintro ⟨_, required, succeeds⟩
    obtain ⟨numbers, read, pair⟩ := bind_eq_ok.1 succeeds
    obtain ⟨a', b', rfl⟩ := List.length_eq_two.1 ((numbers_of_required read).1.1 required)
    cases pair
    exact read
  · intro read
    exact ⟨(), (numbers_of_required read).1.2 rfl, bind_eq_ok.2 ⟨_, read, rfl⟩⟩

/-- A remainder is answered as it is calculated. -/
lemma modulo_eq_ok :
    modulo call = .ok text ↔ Made (Calculation.ofTwo Number.modulo) call.args text := by
  rw [modulo, bind_eq_ok]
  constructor
  · rintro ⟨⟨a, b⟩, read, succeeds⟩
    obtain ⟨n, divides, answers⟩ := bind_eq_ok.1 succeeds
    exact ⟨_, twoNumbers_eq_ok.1 read, n, ofDivision_eq_ok.1 divides, pure_eq_ok.1 answers⟩
  · rintro ⟨numbers, read, n, made, rfl⟩
    match numbers, made with
    | [a, b], made =>
      refine ⟨(a, b), twoNumbers_eq_ok.2 read, bind_eq_ok.2 ⟨n, ?_, rfl⟩⟩
      exact ofDivision_eq_ok.2 made

end Library

namespace Calculation

open Library

variable {σ : Type} {it : Interpreter σ} {c : Calculation} {args : List String} {n : Number}

/-- The number of a call is calculated from those that its arguments read as. -/
lemma number_eq_some : c.number args = some n ↔
    ∃ numbers, Reading.numbers args = .ok numbers ∧ c.compute numbers = some n := by
  simp only [number, Option.bind_eq_some_iff, toOption_eq_some]

/-- What an expansion answers is the text of the number that it makes of its arguments, and it fails if
it makes none. -/
theorem answer_eq_ok_iff {call : Call} {text : String} :
    c.answer call = .ok text ↔ ∃ n, c.number call.args = some n ∧ text = n.text := by
  have made : c.answer call = .ok text ↔ Made c.compute call.args text := by
    cases c with
    | toInt => exact unary_eq_ok
    | toFloat => exact unary_eq_ok
    | sum => exact fold_eq_ok
    | product => exact fold_eq_ok
    | difference => exact subtract_eq_ok
    | quotient => exact divide_eq_ok
    | floorQuotient => exact divide_eq_ok
    | remainder => exact modulo_eq_ok
  rw [made]
  constructor
  · rintro ⟨numbers, read, n, computed, same⟩
    exact ⟨n, number_eq_some.2 ⟨numbers, read, computed⟩, same⟩
  · rintro ⟨n, number, same⟩
    obtain ⟨numbers, read, computed⟩ := number_eq_some.1 number
    exact ⟨numbers, read, n, computed, same⟩

/-- The calls of these names are served by the expansions of the base library. -/
def Served (it : Interpreter σ) : Prop :=
  ∀ c : Calculation, Chain.handlerFor? (it.registry.chain .expansion) c.name =
    some Library.arithmetic.toHandler

/-- A call answers with the text of the number that is made of its arguments. -/
lemma answers_number (served : Served it) (made : c.number args = some n) :
    it.Answers c.name args n.text := by
  refine answers_of_pureExpansion c.name_ne_empty (served c) c.find?_name fun call same => ?_
  exact answer_eq_ok_iff.2 ⟨n, same ▸ made, rfl⟩

/-- The command line program serves every calculation. -/
lemma console_served : Served Console.interpreter := by
  intro c
  cases c <;> rfl

end Calculation

end Scriptlet
