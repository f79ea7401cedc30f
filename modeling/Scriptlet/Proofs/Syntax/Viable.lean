import Scriptlet.Proofs.Syntax.Acceptance
import Scriptlet.Proofs.Syntax.Commands
import Scriptlet.Proofs.Syntax.Relabelling
import Scriptlet.Proofs.Syntax.Statements

/-!
# Viable prefixes

Tokens are viable if some list that the parser accepts begins with tokens like them. An error is
reported at the first token up to which the tokens are not viable (`syntax_error_earliest`).
-/

namespace Scriptlet.Grammar

/-- What the grammar sees of a token. -/
def shape (t : Token) : TokenKind × Bool :=
  (t.kind, t.spaced)

/-- Some list that is accepted begins with tokens of these kinds that are spaced like them. -/
def Viable (tokens : List Token) : Prop :=
  ∃ accepted body, EndsOnce accepted ∧ parseTokens 0 accepted = .ok body ∧
    tokens.map shape <+: accepted.map shape

variable {tokens tokens' more next : List Token}

/-- Tokens with the same kinds and spaces are alike in kind. -/
lemma alike_of_shapes {near : Prop} (same : tokens.map shape = tokens'.map shape) :
    Alike Token.kind near tokens tokens' := by
  induction tokens generalizing tokens' near with
  | nil =>
    obtain rfl := List.map_eq_nil_iff.1 same.symm
    exact .nil
  | cons t tokens ih =>
    obtain ⟨t', rest, rfl, first, later⟩ := List.map_eq_cons_iff.1 same.symm
    obtain ⟨kind, spaced⟩ := Prod.ext_iff.1 first
    exact .cons kind.symm (fun _ => spaced.symm) (ih later.symm)

namespace Symbol

/-- The symbol is derived without an end marker. -/
def Inner : Symbol → Prop
  | script => False
  | many symbol => symbol.Inner
  | name | callTail | piece | adjacentPiece | argument | parameters | statement | separated
  | statements => True

end Symbol

namespace Derivation

variable {symbol : Symbol}

/-- Only scripts have end markers. -/
lemma unmarked (d : Derivation symbol) (inner : symbol.Inner) (proper : d.Proper next) :
    ∀ t ∈ d.tokens, t.kind ≠ .endMarker := by
  have words {symbol : Symbol} (d : Derivation symbol) {next : List Token}
      (word : ¬ symbol.Stated) (proper : d.Proper next) : ∀ t ∈ d.tokens, t.kind ≠ .endMarker := by
    have apart : ∀ kind ∈ wordKinds, kind ≠ .endMarker := by decide
    exact fun t inside => apart _ (d.word_kinds word proper t inside)
  have separators {tokens : List Token} (kinds : ∀ t ∈ tokens, t.kind = .separator) :
      ∀ t ∈ tokens, t.kind ≠ .endMarker :=
    fun t inside => by simp [kinds t inside]
  by_cases stated : symbol.Stated
  · induction d generalizing next with
    | block opener body closer ih =>
      obtain ⟨⟨⟨opens, closes⟩, -⟩, properBody⟩ := proper
      rw [tokens, List.forall_mem_cons, List.forall_mem_append, List.forall_mem_singleton]
      exact ⟨by simp [opens], ih trivial properBody trivial, by simp [closes]⟩
    | control sigil name params body _ _ ih =>
      obtain ⟨⟨⟨kind, -⟩, -⟩, properName, properParams, properBody⟩ := proper
      rw [tokens, List.forall_mem_cons, List.forall_mem_append, List.forall_mem_append]
      exact ⟨by simp [kind], words name id properName, words params id properParams,
        ih trivial properBody trivial⟩
    | command name args =>
      exact List.forall_mem_append.2 ⟨words name id proper.2.1, words args id proper.2.2⟩
    | separated _ statement ih =>
      exact List.forall_mem_append.2 ⟨separators proper.1.1, ih trivial proper.2 trivial⟩
    | statements body _ ih =>
      exact List.forall_mem_append.2 ⟨ih trivial proper.2 trivial, separators proper.1.1⟩
    | script => exact inner.elim
    | nil => exact nofun
    | cons first rest ihFirst ihRest =>
      exact List.forall_mem_append.2
        ⟨ihFirst inner proper.2.1 stated, ihRest inner proper.2.2 stated⟩
    | _ => exact absurd stated id
  · exact words d stated proper

/-- The tokens of a script end with its only end marker. -/
lemma endsOnce (d : Derivation .script) (proper : d.Proper next) : EndsOnce d.tokens := by
  cases d with
  | script body marker =>
    exact ⟨body.tokens, marker, rfl, proper.1.1, body.unmarked trivial proper.2⟩

end Derivation

/-- Tokens are viable if scripts begin with them. -/
lemma viable_iff : Viable tokens ↔
    ∃ (d : Derivation .script) (more : List Token), d.tokens = tokens ++ more ∧ d.Proper [] := by
  constructor
  · rintro ⟨_, body, ends, read, begins⟩
    obtain ⟨d, proper, rfl, -⟩ := (parseTokens_eq_ok ends).1 read
    obtain ⟨_, split⟩ := begins
    obtain ⟨first, more, whole, same, -⟩ := List.map_eq_append_iff.1 split.symm
    have alike : Alike Token.kind Symbol.script.Near d.tokens (tokens ++ more) := by
      refine alike_of_shapes ?_
      rw [whole, List.map_append, List.map_append, same]
    obtain ⟨d', whole', proper', -⟩ := d.relabel id trivial proper alike .nil
    exact ⟨d', more, whole', proper'⟩
  · rintro ⟨d, more, whole, proper⟩
    refine ⟨d.tokens, d.tree, d.endsOnce proper, parseTokens_tokens d proper (.inl rfl), ?_⟩
    rw [whole, List.map_append]
    exact List.prefix_append _ _

/-- What a viable list begins with is viable. -/
lemma Viable.of_append (viable : Viable (tokens ++ more)) : Viable tokens := by
  obtain ⟨accepted, body, ends, read, begins⟩ := viable
  rw [List.map_append] at begins
  exact ⟨accepted, body, ends, read, (List.prefix_append _ _).trans begins⟩

/-- A parse fails where its rule does, since the rule is not absent. -/
lemma finish_eq_error {α : Type} {step : Step α} {error : ParseError}
    (present : step ≠ .absent) (h : finish tokens step = .error error) : step = .failed error := by
  cases step with
  | done value rest => cases h
  | absent => exact absurd rfl present
  | failed e =>
    cases h
    rfl

/-- If the parser rejects a list that ends with its only end marker, a script begins with what is in
front of the error, but none goes on with the token at the error. -/
lemma parseTokens_fails (ends : EndsOnce tokens) {error : ParseError}
    (rejected : parseTokens 0 tokens = .error error) :
    ∃ before t after, tokens = before ++ t :: after ∧ error.location = t.start ∧
      Blocked .script before (t :: after) ∧
      ∃ (d : Derivation .script) (more : List Token), d.tokens = before ++ more ∧ d.Proper [] := by
  have failed := finish_eq_error script_ne_absent rejected
  have short : tokens.length + 1 < room 0 tokens := by
    show _ < 2 * tokens.length + 2
    omega
  obtain ⟨before, rest, rfl, place, blocked, d, more, split, proper⟩ := script_fails short failed
  cases rest with
  | nil =>
    -- a script that begins with the whole list is the list
    rw [List.append_nil] at ends
    have longer := d.endsOnce proper
    obtain ⟨front, marker, rfl, kind, -⟩ := ends
    rw [split, List.append_assoc] at longer
    obtain rfl := longer.nothing_behind kind
    refine absurd ?_ (blocked d [] [] proper trivial rfl)
    rw [split, List.append_nil]
  | cons t after => exact ⟨before, t, after, rfl, place, blocked, d, more, split, proper⟩

/-- Syntax errors name the earliest possible token: if the parser rejects a list that ends with its
only end marker, the error is located at the start of a token in front of which every part of the
list begins some list that is accepted, while the list up to and including the token does not. -/
theorem syntax_error_earliest (ends : EndsOnce tokens) {error : ParseError}
    (rejected : parseTokens 0 tokens = .error error) :
    ∃ before t after, tokens = before ++ t :: after ∧ error.location = t.start ∧
      (∀ earlier, earlier <+: before → Viable earlier) ∧ ¬ Viable (before ++ [t]) := by
  obtain ⟨before, t, after, rfl, place, blocked, d, more, split, proper⟩ :=
    parseTokens_fails ends rejected
  refine ⟨before, t, after, rfl, place, ?_, ?_⟩
  · rintro earlier ⟨later, rfl⟩
    exact (viable_iff.2 ⟨d, more, split, proper⟩).of_append
  · intro viable
    obtain ⟨d, more, split, proper⟩ := viable_iff.1 viable
    refine blocked d [] (t :: more) proper trivial rfl ?_
    simp [split]

/-- The tokens of a command with a sigil in front of a space. -/
def looseSigilTokens : List Token :=
  [⟨.literal, "print", ⟨⟨0, 0⟩, ⟨0, 5⟩⟩, false⟩, ⟨.dollar, "$", ⟨⟨0, 6⟩, ⟨0, 7⟩⟩, true⟩,
    ⟨.literal, "x", ⟨⟨0, 8⟩, ⟨0, 9⟩⟩, true⟩, ⟨.endMarker, "", ⟨⟨0, 9⟩, ⟨0, 9⟩⟩, false⟩]

/-- The error is not at the sigil, behind which a name could be, but at the literal. -/
theorem loose_sigil_earliest : EndsOnce looseSigilTokens ∧
    ∃ error, parseTokens 0 looseSigilTokens = .error error ∧ error.location = ⟨0, 8⟩ ∧
      ∃ before t after, looseSigilTokens = before ++ t :: after ∧ error.location = t.start ∧
        (∀ earlier, earlier <+: before → Viable earlier) ∧ ¬ Viable (before ++ [t]) := by
  have ends : EndsOnce looseSigilTokens :=
    ⟨looseSigilTokens.take 3, ⟨.endMarker, "", ⟨⟨0, 9⟩, ⟨0, 9⟩⟩, false⟩, rfl, rfl, by decide⟩
  obtain ⟨error, rejected, place⟩ : ∃ error, parseTokens 0 looseSigilTokens = .error error ∧
      error.location = ⟨0, 8⟩ := ⟨_, rfl, rfl⟩
  exact ⟨ends, error, rejected, place, syntax_error_earliest ends rejected⟩

end Scriptlet.Grammar
