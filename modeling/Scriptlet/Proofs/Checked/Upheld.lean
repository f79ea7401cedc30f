import Scriptlet.Proofs.Checked.Library

/-!
# No check of the base library fails

A callback counts its arguments before it indexes them, there are as many numbers as there are texts
to read them from, and a step on integers is taken only where it has a result. So with checks the
base library is the base library, whatever would be done if a check failed.
-/

namespace Scriptlet

/-- What goes on alike behind what needs no check goes on without one. -/
lemma Guarded.bind_ofExcept {α β : Type} {x : Except Fault α} {next : α → Guarded β}
    {next' : α → Except Fault β} (same : ∀ a, x = .ok a → next a = ofExcept (next' a)) :
    (ofExcept x >>= next) = ofExcept (x >>= next') := by
  cases x with
  | error fault => rfl
  | ok a => exact same a rfl

/-- A value that is there is given on. -/
@[simp]
lemma Guarded.bind_given {α β : Type} (a : α) (next : α → Guarded β) :
    (given (some a) >>= next) = next a := rfl

/-- A fault is no failed check, whatever is done with the answer. -/
lemma Guarded.map_ofExcept {α β : Type} (f : α → β) (x : Except Fault α) :
    f <$> ofExcept x = ofExcept (f <$> x) := by
  cases x <;> rfl

/-- Behind a computation only the answers that it has matter. -/
lemma Action.bind_ofExcept {σ α β : Type} {x : Except Fault α} {next next' : α → Action σ β}
    (same : ∀ a, x = .ok a → next a = next' a) :
    (Action.ofExcept x >>= next) = (Action.ofExcept x >>= next') := by
  cases x with
  | error fault => rfl
  | ok a => exact same a rfl

namespace Call

variable {call : Call} {count : Nat}

/-- Behind the check of their number, there are so many arguments. -/
lemma length_of_requireArgs (required : call.requireArgs count = .ok ()) :
    call.args.length = count := by
  rw [requireArgs] at required
  split at required
  · assumption
  · cases required

/-- Behind the check of their number, there are at least so many arguments. -/
lemma le_of_requireMinArgs (required : call.requireMinArgs count = .ok ()) :
    count ≤ call.args.length := by
  rw [requireMinArgs] at required
  split at required
  · assumption
  · cases required

end Call

namespace Reading

/-- There are as many numbers as texts. -/
lemma length_numbers {texts : List String} {ns : List Number} (read : numbers texts = .ok ns) :
    ns.length = texts.length := by
  have each : ∀ (texts : List String) {ns : List Number},
      texts.mapM number = .ok ns → ns.length = texts.length := by
    intro texts
    induction texts with
    | nil =>
      intro ns read
      cases read
      rfl
    | cons text texts ih =>
      intro ns read
      rw [List.mapM_cons] at read
      cases first : number text with
      | error fault =>
        rw [first] at read
        cases read
      | ok n =>
        cases rest : texts.mapM number with
        | error fault =>
          rw [first, rest] at read
          cases read
        | ok ns =>
          rw [first, rest] at read
          cases read
          exact congrArg Nat.succ (ih rest)
  rw [numbers] at read
  cases here : texts.mapM number with
  | error fault =>
    rw [here] at read
    cases read
  | ok ns =>
    rw [here] at read
    cases read
    rw [← each texts here, Number.promote]
    split
    · exact List.length_map ..
    · rfl

end Reading

namespace Library.Checked

variable {call : Call}

/-- No check of a difference fails. -/
lemma subtract_eq : subtract call = .ofExcept (Library.subtract call) := by
  refine Guarded.bind_ofExcept fun _ _ => Guarded.bind_ofExcept fun numbers _ => ?_
  match numbers with
  | [] => rfl
  | [n] =>
    simp only [Number.neg?_eq]
    rfl
  | _ :: _ :: _ => rfl

/-- Where two numbers are read, there are two. -/
lemma twoNumbers_bind {β : Type} {next : Number × Number → Guarded β}
    {next' : Number × Number → Except Fault β} (same : ∀ pair, next pair = .ofExcept (next' pair)) :
    (do
      .ofExcept (call.requireArgs 2)
      let numbers ← .ofExcept (Reading.numbers call.args)
      let pair ← firstTwo numbers
      next pair) = Guarded.ofExcept (twoNumbers call >>= next') := by
  cases required : call.requireArgs 2 with
  | error fault =>
    rw [twoNumbers, required]
    rfl
  | ok _ =>
    cases read : Reading.numbers call.args with
    | error fault =>
      rw [twoNumbers, required, read]
      rfl
    | ok numbers =>
      have two := (Reading.length_numbers read).trans (Call.length_of_requireArgs required)
      obtain ⟨a, b, rfl⟩ := List.length_eq_two.1 two
      rw [twoNumbers, required, read]
      exact same (a, b)

/-- No check of a remainder fails. -/
lemma modulo_eq : modulo call = .ofExcept (Library.modulo call) := by
  refine twoNumbers_bind fun (a, b) => ?_
  simp only [Number.modulo?_eq, Guarded.bind_given]
  exact Guarded.bind_ofExcept fun _ _ => rfl

/-- No check of a comparison fails. -/
lemma compare_eq (op : Binary64 → Binary64 → Bool) :
    compare op call = .ofExcept (Library.compare op call) :=
  twoNumbers_bind fun _ => rfl

/-- No check of an equation fails. -/
lemma equal_eq : equal call = .ofExcept (Library.equal call) := by
  refine Guarded.bind_ofExcept fun _ required => ?_
  obtain ⟨a, b, same⟩ := List.length_eq_two.1 (Call.length_of_requireArgs required)
  rw [same]
  cases read : Reading.numbers [a, b] with
  | error fault =>
    dsimp only
    rw [read]
    rfl
  | ok numbers =>
    obtain ⟨m, n, rfl⟩ := List.length_eq_two.1 (Reading.length_numbers read)
    dsimp only
    rw [read]
    rfl

/-- No check of a division fails, if none of a single quotient does. -/
lemma divide_eq {op : Number → Number → Option (Except DivisionFault Number)}
    {op' : Number → Number → Except DivisionFault Number} (same : ∀ a b, op a b = some (op' a b)) :
    divide op call = .ofExcept (Library.divide op' call) := by
  refine Guarded.bind_ofExcept fun _ required => Guarded.bind_ofExcept fun numbers read => ?_
  have two : 2 ≤ numbers.length :=
    (Reading.length_numbers read).symm ▸ Call.le_of_requireMinArgs required
  match numbers, two with
  | first :: rest, two =>
    have others : sliceFrom? 1 (first :: rest) = some rest := if_pos (Nat.le_of_lt two)
    simp only [others, same, Guarded.bind_given]
    exact Guarded.bind_ofExcept fun _ _ => rfl

/-- No check of a look among values fails. -/
lemma isAmong_eq : isAmong call = .ofExcept (Library.isAmong call) := by
  refine Guarded.bind_ofExcept fun _ required => ?_
  have one := Call.le_of_requireMinArgs required
  match call.args, one with
  | item :: items, one =>
    have needle : sliceTo? 1 (item :: items) = some [item] := if_pos one
    have haystack : sliceFrom? 1 (item :: items) = some items := if_pos one
    rw [needle, haystack]
    rfl

/-- No check of what is behind the first word fails. -/
lemma tail_eq : tail call = .ofExcept (Library.tail call) := by
  refine Guarded.bind_ofExcept fun _ _ => ?_
  dsimp only
  rw [Text.dropWord]
  cases found : Bytes.find? Text.isBlank (Text.dropBlanks (Text.unwords call.args).toList) with
  | none =>
    rw [Bytes.dropWhile_of_find?_eq_none found]
    rfl
  | some start =>
    dsimp only
    rw [Bytes.behind?_find? found]
    rfl

/-- A difference that is cut off is too large when it is. -/
lemma maxRangeItems_lt_clamp (n : Int) :
    maxRangeItems < (Int64.ofIntClamp n).toInt ↔ maxRangeItems < n := by
  rw [Int64.ofIntClamp]
  split
  · split
    · rw [Int64.toInt_ofIntLE]
    case isFalse above =>
      rw [Int64.toInt_maxValue] at above ⊢
      rw [maxRangeItems]
      omega
  case isFalse below =>
    rw [Int64.toInt_minValue] at below ⊢
    rw [maxRangeItems]
    omega

/-- No check of a range fails. -/
lemma range_eq : range call = .ofExcept (Library.range call) := by
  refine Guarded.bind_ofExcept fun _ required => ?_
  have enough := Call.le_of_requireMinArgs required
  have bounds : sliceTo? 2 call.args = some (call.args.take 2) := if_pos enough
  rw [bounds, Guarded.bind_given]
  refine Guarded.bind_ofExcept fun numbers read => ?_
  have two : numbers.length = 2 := by
    rw [Reading.length_numbers read, List.length_take, Nat.min_eq_left enough]
  obtain ⟨a, b, rfl⟩ := List.length_eq_two.1 two
  show (if _ then _ else _) = Guarded.ofExcept (if _ then _ else _)
  by_cases long : maxRangeItems < b.truncate.toInt - a.truncate.toInt
  · rw [if_pos long, if_pos ((maxRangeItems_lt_clamp _).2 long)]
  · rw [if_neg long, if_neg (mt (maxRangeItems_lt_clamp _).1 long)]
    obtain ⟨items, counted, same⟩ :=
      Steps.exists_range? maxRangeItems.toNat (Int.not_lt.1 long)
    have texts : (items.map fun n => toString n.toInt) = (items.map Int64.toInt).map toString := by
      rw [List.map_map]
      rfl
    rw [counted, Guarded.bind_given, texts, same, rangeItems, List.map_map]
    rfl

section Callbacks

variable {σ γ : Type} [RandomSource γ] (failing : Failing σ)

/-- An expansion fails nowhere where its answer does not. -/
lemma pureExpansion_eq {answer : Call → Guarded String} {answer' : Call → Except Fault String}
    (same : ∀ call, answer call = .ofExcept (answer' call)) :
    pureExpansion failing answer = Library.pureExpansion answer' := by
  funext call
  rw [pureExpansion, same]
  rfl

/-- No check of an assignment fails. -/
lemma set_eq : set failing = Library.set := by
  funext call
  refine Action.bind_ofExcept fun _ required => ?_
  have one := Call.le_of_requireMinArgs required
  match call.args, one with
  | name :: values, one =>
    have rest : sliceFrom? 1 (name :: values) = some values := if_pos one
    rw [rest]
    rfl

/-- Rounds are counted up to their number without a check that fails. -/
lemma repeatSteps_eq {start stop : Int64} (most : Nat) (fits : stop.toInt - start.toInt ≤ most) :
    repeatSteps failing stop most start = repeatBody (stop.toInt - start.toInt).toNat := by
  induction most generalizing start with
  | zero =>
    have done : ¬ start < stop := fun less => by
      have below := Int64.lt_iff_toInt_lt.1 less
      omega
    rw [repeatSteps, if_neg done, Int.toNat_of_nonpos fits]
    rfl
  | succ most ih =>
    by_cases less : start < stop
    · obtain ⟨next, added, more⟩ := Steps.exists_next? less
      have below := Int64.lt_iff_toInt_lt.1 less
      have count : (stop.toInt - start.toInt).toNat = (stop.toInt - next.toInt).toNat + 1 := by
        omega
      rw [repeatSteps, if_pos less, added, count, repeatBody]
      show (Action.body >>= fun _ => _) = _
      rw [ih (by omega)]
    · have done := Int.not_lt.1 (mt Int64.lt_iff_toInt_lt.2 less)
      rw [repeatSteps, if_neg less, Int.toNat_of_nonpos (by omega)]
      rfl

/-- No check of a counted loop fails. -/
lemma repeatTimes_eq : repeatTimes failing = Library.repeatTimes := by
  funext call
  refine Action.bind_ofExcept fun _ _ => Action.bind_ofExcept fun times _ => ?_
  have stop : (max times 0).toInt = times.toInt.toNat := by
    show (if times ≤ 0 then 0 else times).toInt = _
    split
    case isTrue below =>
      have least := Int64.le_iff_toInt_le.1 below
      rw [Int64.toInt_zero] at least ⊢
      omega
    case isFalse above =>
      have more := mt Int64.le_iff_toInt_le.2 above
      rw [Int64.toInt_zero] at more
      omega
  have count : (max times 0).toInt - (0 : Int64).toInt = times.toInt.toNat := by
    rw [stop, Int64.toInt_zero, Int.sub_zero]
  rw [repeatSteps_eq failing _ (Int.le_of_eq count), count, Int.toNat_natCast]

/-- No check of a loop over items fails. -/
lemma forIn_eq : forIn failing = Library.forIn := by
  funext call
  refine Action.bind_ofExcept fun _ required => ?_
  have two := Call.le_of_requireMinArgs required
  match call.args, two with
  | name :: word :: items, two =>
    have rest : sliceFrom? 2 (name :: word :: items) = some items := if_pos two
    by_cases start : word = "in"
    · subst start
      show (failing.given (sliceFrom? 2 (name :: "in" :: items)) >>= fun _ => _) = _
      rw [rest]
      rfl
    · dsimp only
      rw [if_neg start]
      show (if word ≠ "in" then _ else _) = _
      rw [if_pos start]
      rfl

/-- No check of a loop on a condition fails. -/
lemma whileTrue_eq : whileTrue failing = Library.whileTrue := by
  funext call
  refine Action.bind_ofExcept fun _ required => ?_
  obtain ⟨condition, same⟩ := List.length_eq_one_iff.1 (Call.length_of_requireArgs required)
  rw [Call.arg, same]
  rfl

/-- No check of a definition fails. -/
lemma define_eq : define failing = Library.define := by
  funext call
  refine Action.bind_ofExcept fun _ required => ?_
  have one := Call.le_of_requireMinArgs required
  cases call.body with
  | none => rfl
  | some body =>
    match call.args, one with
    | name :: params, one =>
      have rest : sliceFrom? 1 (name :: params) = some params := if_pos one
      dsimp only
      rw [rest]
      rfl

/-- No check of a line that is read fails. -/
lemma input_eq (slot : Slot σ Streams) : input failing slot = Library.input slot := by
  funext call
  refine Action.bind_ofExcept fun _ required => ?_
  obtain ⟨name, same⟩ := List.length_eq_one_iff.1 (Call.length_of_requireArgs required)
  rw [same]
  rfl

/-- No command fails a check. -/
lemma commands_eq : commands failing = Library.commands := by
  rw [commands, set_eq]
  rfl

/-- No control call fails a check. -/
lemma controls_eq : controls failing = Library.controls := by
  rw [controls, repeatTimes_eq, forIn_eq, whileTrue_eq, define_eq]
  rfl

/-- No calculation fails a check. -/
lemma arithmetic_eq : arithmetic failing = Library.arithmetic := by
  rw [arithmetic, pureExpansion_eq failing fun _ => subtract_eq,
    pureExpansion_eq failing fun _ => divide_eq fun _ _ => rfl,
    pureExpansion_eq failing fun _ => divide_eq Number.floorDiv?_eq,
    pureExpansion_eq failing fun _ => modulo_eq]
  rfl

/-- No comparison fails a check. -/
lemma comparison_eq : comparison failing = Library.comparison := by
  have compares : ∀ op,
      pureExpansion failing (compare op) = Library.pureExpansion (Library.compare op) :=
    fun op => pureExpansion_eq failing fun _ => compare_eq op
  have equals : ∀ call, Reading.ofBool <$> equal call =
      .ofExcept (Reading.ofBool <$> Library.equal call) := by
    intro call
    rw [equal_eq, Guarded.map_ofExcept]
  have differs : ∀ call, Reading.ofBool <$> not <$> equal call =
      .ofExcept (Reading.ofBool <$> not <$> Library.equal call) := by
    intro call
    rw [equal_eq, Guarded.map_ofExcept, Guarded.map_ofExcept]
  rw [comparison, compares, compares, compares, compares, pureExpansion_eq failing equals,
    pureExpansion_eq failing differs, pureExpansion_eq failing fun _ => isAmong_eq]
  rfl

/-- No expansion of words fails a check. -/
lemma vectors_eq : vectors failing = Library.vectors := by
  rw [vectors, pureExpansion_eq failing fun _ => tail_eq,
    pureExpansion_eq failing fun _ => range_eq]
  rfl

/-- Neither printing nor reading fails a check. -/
lemma stdio_eq (slot : Slot σ Streams) : stdio failing slot = Library.stdio slot := by
  rw [stdio, input_eq]
  rfl

/-- With checks, the base library is the base library. -/
lemma addBase_eq (random : Slot σ γ) (it : Interpreter σ) :
    addBase failing random it = Library.addBase random it := by
  rw [addBase, commands_eq, controls_eq, arithmetic_eq, comparison_eq, vectors_eq]
  rfl

end Callbacks

end Library.Checked

end Scriptlet
