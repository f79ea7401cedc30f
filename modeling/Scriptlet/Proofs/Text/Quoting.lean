import Mathlib.Data.List.Basic
import Mathlib.Tactic.Lemma
import Mathlib.Tactic.SplitIfs
import Scriptlet.Text.Quoted

/-!
# Quoted forms say what they quote

The escape of a character says which character it is and where it ends. So a text can be told from
its quoted form, and the quoted form ends at its second quote, whatever comes behind it.
-/

namespace Scriptlet.Text

/-- Where two texts run up to the first character that fails the test, they are the same up to there
and behind it. -/
lemma append_inj_of_all {p : Char → Bool} {s t u v : List Char} (all : ∀ c ∈ s, p c)
    (all' : ∀ c ∈ t, p c) (stops : ∀ c ∈ u.head?, p c = false) (stops' : ∀ c ∈ v.head?, p c = false)
    (same : s ++ u = t ++ v) : s = t ∧ u = v := by
  induction s generalizing t with
  | nil =>
    cases t with
    | nil => exact ⟨rfl, same⟩
    | cons d t =>
      obtain rfl : u = d :: (t ++ v) := same
      exact absurd (all' d List.mem_cons_self) (by simp [stops d rfl])
  | cons c s ih =>
    cases t with
    | nil =>
      obtain rfl : c :: (s ++ u) = v := same
      exact absurd (all c List.mem_cons_self) (by simp [stops' c rfl])
    | cons d t =>
      obtain ⟨rfl, inner⟩ : c = d ∧ s ++ u = t ++ v := List.cons.inj same
      obtain ⟨rfl, behind⟩ := ih (fun c inside => all c (.tail _ inside))
        (fun c inside => all' c (.tail _ inside)) inner
      exact ⟨rfl, behind⟩

/-- Whether the character is a digit of a lower-case hexadecimal number. -/
def isHexDigit (c : Char) : Bool :=
  c.isDigit || 'a' ≤ c && c ≤ 'f'

/-- The digits of hexadecimal numbers are written as such digits. -/
lemma isHexDigit_digitChar : ∀ digit < 16, isHexDigit (Nat.digitChar digit) := by
  decide

/-- Different digits are written differently. -/
lemma digitChar_inj : ∀ digit < 16, ∀ digit' < 16,
    Nat.digitChar digit = Nat.digitChar digit' → digit = digit' := by
  decide

/-- A hexadecimal number is written in hexadecimal digits. -/
lemma isHexDigit_of_mem {n : Nat} {c : Char} (inside : c ∈ hexDigits n) : isHexDigit c := by
  induction n using Nat.strongRecOn with
  | ind n ih =>
    rw [hexDigits, Nat.toDigits_eq_if (by decide)] at inside
    split at inside
    case isTrue small =>
      rw [List.mem_singleton.1 inside]
      exact isHexDigit_digitChar n small
    case isFalse =>
      obtain front | last := List.mem_append.1 inside
      · exact ih (n / 16) (by omega) front
      · rw [List.mem_singleton.1 last]
        exact isHexDigit_digitChar _ (Nat.mod_lt n (by decide))

/-- Different numbers are written differently. -/
lemma hexDigits_injective : Function.Injective hexDigits := by
  intro n m same
  induction n using Nat.strongRecOn generalizing m with
  | ind n ih =>
    have short {k : Nat} (small : k < 16) : hexDigits k = [Nat.digitChar k] :=
      Nat.toDigits_of_lt_base small
    have long {k : Nat} (large : ¬ k < 16) :
        hexDigits k = hexDigits (k / 16) ++ [Nat.digitChar (k % 16)] := by
      rw [hexDigits, Nat.toDigits_eq_if (by decide), if_neg large]
      rfl
    have nonempty (k : Nat) : hexDigits k ≠ [] := Nat.toDigits_ne_nil
    by_cases small : n < 16 <;> by_cases small' : m < 16
    · rw [short small, short small'] at same
      exact digitChar_inj n small m small' (List.cons.inj same).1
    · rw [short small, long small'] at same
      have front := congrArg List.dropLast same
      rw [List.dropLast_concat] at front
      exact absurd front.symm (nonempty _)
    · rw [long small, short small'] at same
      have front := congrArg List.dropLast same
      rw [List.dropLast_concat] at front
      exact absurd front (nonempty _)
    · rw [long small, long small'] at same
      obtain ⟨front, last⟩ := List.append_inj' same rfl
      have quotient : n / 16 = m / 16 := ih (n / 16) (by omega) front
      have digit : n % 16 = m % 16 :=
        digitChar_inj _ (Nat.mod_lt n (by decide)) _ (Nat.mod_lt m (by decide))
          (List.cons.inj last).1
      omega

/-- The characters with short escapes, each with what follows the backslash. -/
def shortEscapes : List (Char × Char) :=
  [('"', '"'), ('\\', '\\'), ('\n', 'n'), ('\r', 'r'), ('\t', 't'), ('\x00', '0')]

/-- The ways in which a character is written between quotes. -/
inductive Escape (c : Char) : List Char → Prop
  | short {d : Char} : (c, d) ∈ shortEscapes → Escape c ['\\', d]
  | code : Escape c (codeEscape c)
  | plain : c ≠ '"' → c ≠ '\\' → c ≠ '\n' → Escape c [c]

/-- Every character is written in one of the three ways. -/
lemma escape_cases (c : Char) : Escape c (escape c) := by
  have listed {d e : Char} (same : c = d) (short : (d, e) ∈ shortEscapes) : Escape c ['\\', e] :=
    .short (same ▸ short)
  rw [escape]
  split_ifs with quote backslash feed home tab null coded
  · exact listed quote (by decide)
  · exact listed backslash (by decide)
  · exact listed feed (by decide)
  · exact listed home (by decide)
  · exact listed tab (by decide)
  · exact listed null (by decide)
  · exact .code
  · exact .plain quote backslash feed

namespace Escape

variable {c d : Char} {s t u v : List Char}

/-- No escape holds a line feed, and none starts with a quote. -/
lemma safe (written : Escape c s) : '\n' ∉ s ∧ ∃ first more, s = first :: more ∧ first ≠ '"' := by
  cases written with
  | short listed =>
    have shown : ∀ pair ∈ shortEscapes, pair.2 ≠ '\n' := by decide
    exact ⟨by simpa using (shown _ listed).symm, '\\', _, rfl, by decide⟩
  | code =>
    refine ⟨?_, '\\', _, rfl, by decide⟩
    have digits : '\n' ∉ hexDigits c.toNat := fun inside =>
      absurd (isHexDigit_of_mem inside) (by decide)
    simpa [codeEscape] using digits
  | plain quote _ feed => exact ⟨by simpa using feed.symm, c, [], rfl, quote⟩

/-- A short escape is not the start of a code. -/
lemma short_ne_code {e : Char} (listed : (c, e) ∈ shortEscapes) :
    ['\\', e] ++ u ≠ codeEscape d ++ v := by
  have apart : ∀ pair ∈ shortEscapes, pair.2 ≠ 'u' := by decide
  intro same
  exact apart _ listed (List.cons.inj (List.cons.inj same).2).1

/-- An escape says where it ends, and which character it is. -/
lemma append_inj (first : Escape c s) (second : Escape d t) (same : s ++ u = t ++ v) :
    c = d ∧ u = v := by
  cases first with
  | short listed =>
    cases second with
    | short listed' =>
      have one : ∀ pair ∈ shortEscapes, ∀ pair' ∈ shortEscapes, pair.2 = pair'.2 →
          pair.1 = pair'.1 := by decide
      obtain ⟨shown, behind⟩ := List.cons.inj (List.cons.inj same).2
      exact ⟨one _ listed _ listed' shown, behind⟩
    | code => exact absurd same (short_ne_code listed)
    | plain _ backslash => exact absurd (List.cons.inj same).1.symm backslash
  | code =>
    cases second with
    | short listed' => exact absurd same.symm (short_ne_code listed')
    | code =>
      have digits : hexDigits c.toNat ++ '\x7d' :: u = hexDigits d.toNat ++ '\x7d' :: v := by
        simpa [codeEscape] using same
      have stops (w : List Char) : ∀ e ∈ ('\x7d' :: w).head?, isHexDigit e = false := by
        rintro e ⟨⟩
        decide
      obtain ⟨number, behind⟩ := append_inj_of_all (fun _ => isHexDigit_of_mem)
        (fun _ => isHexDigit_of_mem) (stops u) (stops v) digits
      exact ⟨Char.toNat_inj.1 (hexDigits_injective number), (List.cons.inj behind).2⟩
    | plain _ backslash => exact absurd (List.cons.inj same).1.symm backslash
  | plain _ backslash =>
    cases second with
    | short | code => exact absurd (List.cons.inj same).1 backslash
    | plain => exact List.cons.inj same

end Escape

/-- The escapes of a text end at the quote behind them. -/
lemma escapes_append_inj {s t u v : List Char}
    (same : s.flatMap escape ++ '"' :: u = t.flatMap escape ++ '"' :: v) : s = t ∧ u = v := by
  have apart (c : Char) (s u v : List Char) : '"' :: u ≠ (c :: s).flatMap escape ++ '"' :: v := by
    obtain ⟨-, first, more, here, other⟩ := (escape_cases c).safe
    rw [List.flatMap_cons, here]
    exact fun same => other (List.cons.inj same).1.symm
  induction s generalizing t with
  | nil =>
    cases t with
    | nil => exact ⟨rfl, (List.cons.inj same).2⟩
    | cons d t => exact absurd same (apart d t u v)
  | cons c s ih =>
    cases t with
    | nil => exact absurd same.symm (apart c s v u)
    | cons d t =>
      rw [List.flatMap_cons, List.flatMap_cons, List.append_assoc, List.append_assoc] at same
      obtain ⟨rfl, inner⟩ := (escape_cases c).append_inj (escape_cases d) same
      obtain ⟨rfl, behind⟩ := ih inner
      exact ⟨rfl, behind⟩

/-- The quoted form of a text starts with a quote. -/
lemma quoted_toList (s : String) :
    (quoted s).toList = '"' :: (s.toList.flatMap escape ++ ['"']) := by
  simp [quoted]

/-- A quoted form says which text it quotes, and where it ends. -/
theorem quoted_append_inj {s t : String} {u v : List Char}
    (same : (quoted s).toList ++ u = (quoted t).toList ++ v) : s = t ∧ u = v := by
  have inner : s.toList.flatMap escape ++ '"' :: u = t.toList.flatMap escape ++ '"' :: v := by
    simpa [quoted_toList] using same
  exact (escapes_append_inj inner).imp_left String.toList_inj.1

/-- A quoted form stands on one line. -/
theorem feed_not_mem_quoted (s : String) : '\n' ∉ (quoted s).toList := by
  have escaped : ∀ c, '\n' ∉ escape c := fun c => (escape_cases c).safe.1
  simp [quoted_toList, escaped]

end Scriptlet.Text
