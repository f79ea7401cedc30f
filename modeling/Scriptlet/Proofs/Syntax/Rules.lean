import Mathlib.Tactic.Lemma
import Scriptlet.Syntax.Rule

/-!
# When rules are done

For each way of putting rules together, when the result is done, with which value, and which tokens
it leaves. A repetition is done where its rule is absent (`many_repeats`, `Repeats.many`), if the
rule takes tokens whenever it is done.
-/

namespace Scriptlet

/-- Nothing separates the first of the tokens from what comes before it. -/
def Adjacent : List Token → Prop
  | [] => False
  | t :: _ => t.spaced = false

/-- The first of the tokens is of one of these kinds. -/
def StartsWith (kinds : List TokenKind) : List Token → Prop
  | [] => False
  | t :: _ => t.kind ∈ kinds

/-- Tokens that start with one of some kinds start with one of more kinds. -/
lemma StartsWith.mono {kinds more : List TokenKind} {tokens : List Token}
    (h : StartsWith kinds tokens) (wider : kinds ⊆ more) : StartsWith more tokens := by
  cases tokens with
  | nil => exact h
  | cons t tokens => exact wider h

/-- How tokens start does not depend on what comes later. -/
lemma StartsWith.append {kinds : List TokenKind} {tokens : List Token}
    (h : StartsWith kinds tokens) (next : List Token) : StartsWith kinds (tokens ++ next) := by
  cases tokens with
  | nil => exact h.elim
  | cons t tokens => exact h

/-- Tokens start with one kind only. -/
lemma StartsWith.apart {kinds others : List TokenKind} {tokens : List Token}
    (h : StartsWith kinds tokens) (disjoint : ∀ kind ∈ kinds, kind ∉ others) :
    ¬ StartsWith others tokens := by
  cases tokens with
  | nil => exact h.elim
  | cons t tokens => exact disjoint _ h

/-- Tokens start with the kind of the first. -/
lemma startsWith_cons {kind : TokenKind} {t : Token} {tokens : List Token} (h : t.kind = kind) :
    StartsWith [kind] (t :: tokens) := by
  rw [← h]
  exact List.mem_singleton_self _

/-- Whether tokens are adjacent does not depend on what comes later. -/
lemma Adjacent.append {tokens : List Token} (h : Adjacent tokens) (next : List Token) :
    Adjacent (tokens ++ next) := by
  cases tokens with
  | nil => exact h.elim
  | cons t tokens => exact h

namespace Rule

/-- The rule is done again and again, and absent from what is left then, if anything is. -/
inductive Repeats {α : Type} (rule : Rule α) : List Token → List α → List Token → Prop
  | stop {tokens} :
    tokens = [] ∨ rule tokens = .absent →
    Repeats rule tokens [] tokens
  | more {tokens middle rest value values} :
    rule tokens = .done value middle →
    Repeats rule middle values rest →
    Repeats rule tokens (value :: values) rest

/-- Whenever the rule is done it has taken tokens. -/
def Consumes {α : Type} (rule : Rule α) : Prop :=
  ∀ tokens value rest, rule tokens = .done value rest → rest.length < tokens.length

variable {α β : Type} {rule other : Rule α} {tokens rest : List Token} {value : α}

/-- A value takes nothing. -/
lemma pure_eq_done {v : α} :
    (pure v : Rule α) tokens = .done value rest ↔ v = value ∧ tokens = rest := by
  show Step.done v tokens = _ ↔ _
  rw [Step.done.injEq]

/-- Two rules in turn are done if each is, the second behind the first. -/
lemma bind_eq_done {next : α → Rule β} {value : β} :
    (rule >>= next) tokens = .done value rest ↔
      ∃ first middle, rule tokens = .done first middle ∧ next first middle = .done value rest := by
  show andThen rule next tokens = _ ↔ _
  rw [andThen]
  cases rule tokens with
  | done first middle =>
    constructor
    · exact fun h => ⟨first, middle, rfl, h⟩
    · rintro ⟨_, _, e, h⟩
      cases e
      exact h
  | absent => simp
  | failed error => simp

/-- Two rules in turn are absent if the first is or, where it is done, the second. -/
lemma bind_eq_absent {next : α → Rule β} :
    (rule >>= next) tokens = .absent ↔
      rule tokens = .absent ∨
        ∃ first middle, rule tokens = .done first middle ∧ next first middle = .absent := by
  show andThen rule next tokens = _ ↔ _
  rw [andThen]
  cases rule tokens with
  | done first middle =>
    constructor
    · exact fun h => .inr ⟨first, middle, rfl, h⟩
    · rintro (e | ⟨_, _, e, h⟩)
      · cases e
      · cases e
        exact h
  | absent => simp
  | failed error => simp

/-- A choice is done if its first side is or, where that is absent, the second. -/
lemma or_eq_done :
    (rule.or other) tokens = .done value rest ↔
      rule tokens = .done value rest ∨ rule tokens = .absent ∧ other tokens = .done value rest := by
  rw [or]
  cases rule tokens with
  | done first middle => simp
  | absent => simp
  | failed error => simp

/-- A choice is absent if both sides are. -/
lemma or_eq_absent :
    (rule.or other) tokens = .absent ↔ rule tokens = .absent ∧ other tokens = .absent := by
  rw [or]
  cases rule tokens with
  | done first middle => simp
  | absent => simp
  | failed error => simp

/-- A token of the kind is taken. -/
lemma token_eq_done {kind : TokenKind} {t : Token} :
    token kind tokens = .done t rest ↔ tokens = t :: rest ∧ t.kind = kind := by
  cases tokens with
  | nil => simp [token]
  | cons first tokens =>
    rw [token]
    split
    · rename_i same
      simp only [Step.done.injEq, List.cons.injEq]
      constructor
      · rintro ⟨rfl, rfl⟩
        exact ⟨⟨rfl, rfl⟩, same⟩
      · exact fun h => h.1
    · rename_i differ
      refine ⟨nofun, ?_⟩
      rintro ⟨e, same⟩
      cases e
      exact absurd same differ

/-- A token is absent where none of its kind is first. -/
lemma token_eq_absent {kind : TokenKind} :
    token kind tokens = .absent ↔ ¬ StartsWith [kind] tokens := by
  cases tokens with
  | nil => simp [token, StartsWith]
  | cons first tokens =>
    rw [token]
    split <;> simp [StartsWith, *]

/-- A rule for what is adjacent is done where the rule is and nothing separates. -/
lemma adjacent_eq_done :
    adjacent rule tokens = .done value rest ↔ Adjacent tokens ∧ rule tokens = .done value rest := by
  cases tokens with
  | nil => simp [adjacent, Adjacent]
  | cons first tokens => cases h : first.spaced <;> simp [adjacent, Adjacent, h]

/-- It is absent if the rule is, at least where nothing separates. -/
lemma adjacent_eq_absent (h : Adjacent tokens → rule tokens = .absent) :
    adjacent rule tokens = .absent := by
  cases tokens with
  | nil => rfl
  | cons first tokens =>
    rw [adjacent]
    split
    · rfl
    · rename_i unspaced
      exact h (by simpa [Adjacent] using unspaced)

/-- Where nothing separates, it is absent only if the rule is. -/
lemma absent_of_adjacent (near : Adjacent tokens) (h : adjacent rule tokens = .absent) :
    rule tokens = .absent := by
  cases tokens with
  | nil => exact near.elim
  | cons first tokens =>
    have unspaced : first.spaced = false := near
    rw [adjacent, unspaced] at h
    exact h

/-- A commitment is done where the rule is. -/
lemma commit_eq_done {what : Expectation} :
    commit what rule tokens = .done value rest ↔ rule tokens = .done value rest := by
  rw [commit]
  cases rule tokens with
  | done first middle => simp
  | absent => simp [fail]
  | failed error => simp

/-- A commitment is not absent. -/
lemma commit_ne_absent {what : Expectation} : commit what rule tokens ≠ .absent := by
  rw [commit]
  cases rule tokens <;> simp [fail]

/-- An optional rule is done with the rule, or with nothing where that is absent. -/
lemma optional_eq_done {value : Option α} :
    optional rule tokens = .done value rest ↔
      (∃ v, value = some v ∧ rule tokens = .done v rest) ∨
        value = none ∧ tokens = rest ∧ rule tokens = .absent := by
  rw [optional]
  cases rule tokens with
  | done first middle => cases value <;> simp
  | absent => simp [eq_comm]
  | failed error => simp

/-- A clock that does not run out before the tokens do does not end a repetition. -/
lemma manyFor_repeats (consumes : Consumes rule) {clock : List Token} {values : List α}
    (enough : tokens.length ≤ clock.length) (h : manyFor rule clock tokens = .done values rest) :
    Repeats rule tokens values rest := by
  -- on the clock, since the repetition is by recursion on it
  induction clock generalizing tokens values with
  | nil =>
    cases h
    exact .stop (.inl (List.eq_nil_of_length_eq_zero (Nat.le_zero.1 enough)))
  | cons tick clock ih =>
    rw [manyFor] at h
    split at h
    · rename_i gone
      cases h
      exact .stop (.inr gone)
    · cases h
    · rename_i first middle present
      -- the round has taken a token for the tick that it lost
      have shorter := consumes _ _ _ present
      rw [List.length_cons] at enough
      split at h
      · rename_i values left rounds
        cases h
        exact .more present (ih (by omega) rounds)
      · cases h
      · cases h

/-- What every value of a rule has, the values of its repetition have. -/
lemma manyFor_all {clock : List Token} {values : List α} {property : α → Prop}
    (each : ∀ {tokens value rest}, rule tokens = .done value rest → property value)
    (h : manyFor rule clock tokens = .done values rest) : ∀ value ∈ values, property value := by
  induction clock generalizing tokens values with
  | nil =>
    cases h
    exact fun _ none => absurd none List.not_mem_nil
  | cons tick clock ih =>
    rw [manyFor] at h
    split at h
    · cases h
      exact fun _ none => absurd none List.not_mem_nil
    · cases h
    · rename_i present
      split at h
      · rename_i rounds
        cases h
        exact List.forall_mem_cons.2 ⟨each present, ih rounds⟩
      · cases h
      · cases h

/-- All values of a repetition have what each of them has. -/
lemma many_all {values : List α} {property : α → Prop}
    (each : ∀ {tokens value rest}, rule tokens = .done value rest → property value)
    (h : many rule tokens = .done values rest) : ∀ value ∈ values, property value :=
  manyFor_all each h

/-- A repetition of a rule that consumes runs until the rule is absent. -/
lemma many_repeats (consumes : Consumes rule) {values : List α}
    (h : many rule tokens = .done values rest) : Repeats rule tokens values rest :=
  manyFor_repeats consumes (Nat.le_refl _) h

/-- Behind a repetition, no tokens are left or the rule is absent. -/
lemma Repeats.ends {values : List α} (h : Repeats rule tokens values rest) :
    rest = [] ∨ rule rest = .absent := by
  induction h with
  | stop gone => exact gone
  | more _ _ ih => exact ih

/-- A clock as long as the tokens lasts for all rounds. -/
lemma Repeats.manyFor (consumes : Consumes rule) (nothing : rule [] = .absent) {clock : List Token}
    {values : List α} (enough : tokens.length ≤ clock.length)
    (h : Repeats rule tokens values rest) : manyFor rule clock tokens = .done values rest := by
  induction h generalizing clock with
  | stop gone =>
    cases clock with
    | nil => rfl
    | cons tick clock =>
      obtain rfl | gone := gone
      · rw [Rule.manyFor, nothing]
      · rw [Rule.manyFor, gone]
  | more present _ ih =>
    have shorter := consumes _ _ _ present
    cases clock with
    | nil =>
      rw [List.length_nil] at enough
      omega
    | cons tick clock =>
      rw [List.length_cons] at enough
      rw [Rule.manyFor, present]
      dsimp only
      rw [ih (by omega)]

/-- So do the tokens themselves. -/
lemma Repeats.many (consumes : Consumes rule) (nothing : rule [] = .absent) {values : List α}
    (h : Repeats rule tokens values rest) : Rule.many rule tokens = .done values rest :=
  h.manyFor consumes nothing (Nat.le_refl _)

end Rule

end Scriptlet
