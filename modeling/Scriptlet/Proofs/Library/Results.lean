import Scriptlet.Proofs.Library.Calculations
import Scriptlet.Proofs.Numeric.Writing

/-!
# Results as arguments

What a calculation answers is the text of a number of the format, and so it reads back as this number,
of the same kind and with the same sign of zero, wherever it is passed on to. Only an infinity and what
is no number do not: their texts are no numerals (`Calculation.results_read_back`).
-/

namespace Scriptlet

open Library

variable {n : Number}

namespace Reading

/-- Numbers that are brought to one form stay sound. -/
lemma promote_sound {ns : List Number} (sound : ∀ n ∈ ns, n.Sound) :
    ∀ n ∈ Number.promote ns, n.Sound := by
  rw [Number.promote]
  split
  · intro n mem
    obtain ⟨m, inside, rfl⟩ := List.mem_map.1 mem
    exact (sound m inside).toFloat
  · exact sound

/-- Every number that is read is a number of the format. -/
lemma numbers_sound {args : List String} {ns : List Number} (read : numbers args = .ok ns) :
    ∀ n ∈ ns, n.Sound := by
  have each : ∀ (args : List String) {ns : List Number}, args.mapM number = .ok ns →
      ∀ n ∈ ns, n.Sound := by
    intro args
    induction args with
    | nil =>
      rintro _ ⟨⟩
      exact nofun
    | cons arg args ih =>
      intro ns read
      rw [List.mapM_cons] at read
      obtain ⟨first, here, read⟩ := bind_eq_ok.1 read
      obtain ⟨rest, behind, read⟩ := bind_eq_ok.1 read
      cases pure_eq_ok.1 read
      intro n mem
      rcases List.mem_cons.1 mem with rfl | mem
      · exact Number.read?_sound (number_eq_ok.1 here)
      · exact ih behind n mem
  rw [numbers] at read
  obtain ⟨ms, each_read, read⟩ := bind_eq_ok.1 read
  rw [pure_eq_ok.1 read]
  exact promote_sound (each args each_read)

end Reading

namespace Number

variable {op : Number → Number → Number} {ns : List Number}

/-- Sound numbers come to a sound one, if two of them do. -/
lemma foldl_sound (keeps : ∀ {a b}, Sound a → Sound b → Sound (op a b)) {first : Number}
    (start : Sound first) (sound : ∀ n ∈ ns, Sound n) : Sound (ns.foldl op first) := by
  induction ns generalizing first with
  | nil => exact start
  | cons n ns ih =>
    exact ih (keeps start (sound n (List.mem_cons_self ..)))
      fun m mem => sound m (List.mem_cons_of_mem _ mem)

/-- Sound numbers are reduced to a sound one, if two of them are. -/
lemma reduce_sound (keeps : ∀ {a b}, Sound a → Sound b → Sound (op a b)) (sound : ∀ n ∈ ns, Sound n)
    (reduced : reduce op ns = some n) : Sound n := by
  cases ns with
  | nil => cases reduced
  | cons first rest =>
    cases reduced
    exact foldl_sound keeps (sound first (List.mem_cons_self ..))
      fun m mem => sound m (List.mem_cons_of_mem _ mem)

/-- A difference of sound numbers is sound. -/
lemma subtractAll_sound (sound : ∀ n ∈ ns, Sound n) : Sound (subtractAll ns) := by
  match ns with
  | [] => exact sound_int 0
  | [n] => exact (sound n (List.mem_singleton_self n)).neg
  | first :: second :: rest =>
    have others : Sound (rest.foldl add second) :=
      foldl_sound .add (sound second (by simp)) fun m mem => sound m (by simp [mem])
    exact (sound first (List.mem_cons_self ..)).sub others

end Number

namespace Calculation

variable {σ : Type} {it : Interpreter σ} {c : Calculation} {args : List String}

/-- What is calculated from a sound number is sound, if the operation keeps it so. -/
lemma ofOne_sound {op : Number → Number} {ns : List Number}
    (keeps : ∀ {a}, Number.Sound a → (op a).Sound) (sound : ∀ n ∈ ns, n.Sound)
    (made : ofOne op ns = some n) : n.Sound := by
  obtain ⟨m, rfl, rfl⟩ := ofOne_eq_some.1 made
  exact keeps (sound m (List.mem_singleton_self m))

/-- A quotient of sound numbers is sound, if the division keeps it so. -/
lemma ofDivided_sound {op : Number → Number → Except DivisionFault Number} {ns : List Number}
    (keeps : ∀ {a b n}, Number.Sound a → b.Sound → op a b = .ok n → n.Sound)
    (sound : ∀ n ∈ ns, n.Sound) (made : ofDivided op ns = some n) : n.Sound := by
  match ns, made with
  | first :: second :: rest, made =>
    have others : (rest.foldl .mul second).Sound :=
      Number.foldl_sound .mul (sound second (by simp)) fun m mem => sound m (by simp [mem])
    exact keeps (sound first (List.mem_cons_self ..)) others (toOption_eq_some.1 made)

/-- What is made of numbers of the format is one. -/
lemma compute_sound {ns : List Number} (sound : ∀ n ∈ ns, n.Sound) (made : c.compute ns = some n) :
    n.Sound := by
  cases c with
  | toInt => exact ofOne_sound (fun _ => .toInt _) sound made
  | toFloat => exact ofOne_sound .toFloat sound made
  | sum => exact Number.reduce_sound .add sound made
  | product => exact Number.reduce_sound .mul sound made
  | difference =>
    cases ns with
    | nil => cases made
    | cons first rest =>
      cases made
      exact Number.subtractAll_sound sound
  | quotient => exact ofDivided_sound .div sound made
  | floorQuotient => exact ofDivided_sound .floorDiv sound made
  | remainder =>
    match ns, made with
    | [a, b], made =>
      exact .modulo (sound a (by simp)) (sound b (by simp)) (toOption_eq_some.1 made)

/-- The number of a calculation is sound. -/
lemma number_sound (made : c.number args = some n) : n.Sound := by
  obtain ⟨ns, read, made⟩ := number_eq_some.1 made
  exact compute_sound (Reading.numbers_sound read) made

/-- A call that succeeds answers with the text of a number. If this is an integer or finite, the text
reads back as the same number, so it can be passed on to any call that takes numbers. If not, the text
is no numeral, so such a call fails. -/
theorem results_read_back (served : Served it) {call : Call} {text : String}
    (succeeds : c.answer call = .ok text) :
    it.Answers c.name call.args text ∧ ∃ n, c.number call.args = some n ∧ text = n.text ∧
      (n.isFinite = true → Number.read? text = some n ∧ Reading.number text = .ok n) ∧
      (n.isFinite = false → Number.read? text = none ∧
        Reading.number text = .error (.notNumber text)) := by
  obtain ⟨n, made, rfl⟩ := answer_eq_ok_iff.1 succeeds
  refine ⟨answers_number served made, n, made, rfl, fun finite => ?_, fun infinite => ?_⟩
  · have reads := Number.read?_text (number_sound made) finite
    exact ⟨reads, Reading.number_eq_ok.2 reads⟩
  · have unread := Number.read?_text_of_infinite infinite
    exact ⟨unread, by rw [Reading.number, unread]⟩

/-- The sum of these two has seventeen digits, all of which it takes to read it back. -/
theorem tenths_read_back : Served Console.interpreter ∧
    sum.answer ⟨⟨"+", .expansion, ["0.1", "0.2"], default⟩, .script [], none⟩ =
      .ok "0.30000000000000004" ∧
    Console.interpreter.Answers "+" ["0.1", "0.2"] "0.30000000000000004" ∧
    Number.read? "0.30000000000000004" = sum.number ["0.1", "0.2"] := by
  have succeeds : sum.answer ⟨⟨"+", .expansion, ["0.1", "0.2"], default⟩, .script [], none⟩ =
      .ok "0.30000000000000004" := by
    decide +kernel
  obtain ⟨answers, n, made, -, finite, infinite⟩ := results_read_back console_served succeeds
  refine ⟨console_served, succeeds, answers, ?_⟩
  cases kind : n.isFinite with
  | true => exact (finite kind).1.trans made.symm
  | false => exact absurd (infinite kind).1 (by decide +kernel)

/-- The product of a large number and ten is answered, but its text is no numeral, so it cannot be
added to one. -/
theorem overflow_not_read_back :
    let product : Word Token := .substitution default (.literal default "*")
      [.literal default "1e308", .literal default "10"]
    let sum : Word Token := .substitution default (.literal default "+")
      [product, .literal default "1"]
    let evaluated word := (Word.arguments (Console.interpreter.expand 3) [word]
      ⟨.initial, Console.start [] 0⟩).map fun ended => ended.1.toOption
    evaluated product = some (some ["inf"]) ∧ Number.read? "inf" = none ∧
      evaluated sum = some none := by
  decide +kernel

end Calculation

end Scriptlet
