import Scriptlet.Proofs.Syntax.Openings

/-!
# What stands behind a derivation

Of the tokens behind a derivation only the first one matters, and of that only whether it goes on
with an argument and whether it ends a command (`Derivation.Proper.behind`).
-/

namespace Scriptlet

open Grammar

/-- An argument that ends in front of these tokens cannot go on with them. -/
def Apart (next : List Token) : Prop :=
  ¬ (Adjacent next ∧ StartsWith pieceKinds next)

/-- Whether the first token is spaced. -/
def FirstSpaced (spaced : Bool) : List Token → Prop
  | [] => False
  | t :: _ => t.spaced = spaced

/-- An argument does not go on across a space. -/
lemma apart_of_spaced {tokens : List Token} (spaced : FirstSpaced true tokens) (next : List Token) :
    Apart (tokens ++ next) := by
  rintro ⟨near, -⟩
  cases tokens with
  | nil => exact spaced
  | cons t tokens => cases spaced.symm.trans near

/-- An argument does not go on with a token that starts no piece. -/
lemma apart_of_kind {t : Token} {kind : TokenKind} (same : t.kind = kind)
    (other : ∀ k ∈ [kind], k ∉ pieceKinds) (next : List Token) : Apart (t :: next) :=
  fun starts => (startsWith_cons same).apart other starts.2

/-- Tokens that start without a space are adjacent. -/
lemma adjacent_of_firstSpaced {tokens : List Token} (unspaced : FirstSpaced false tokens) :
    Adjacent tokens := by
  cases tokens with
  | nil => exact unspaced
  | cons t tokens => exact unspaced

/-- Whether the first token is spaced does not depend on what comes later. -/
lemma FirstSpaced.append {spaced : Bool} {tokens : List Token} (first : FirstSpaced spaced tokens)
    (next : List Token) : FirstSpaced spaced (tokens ++ next) := by
  cases tokens with
  | nil => exact first.elim
  | cons t tokens => exact first

/-- These tokens end a command. -/
def EndsCommand (next : List Token) : Prop :=
  StartsWith [.separator, .closeBrace, .endMarker] next

/-- An argument does not go on with what ends a command. -/
lemma EndsCommand.apart {next : List Token} (ends : EndsCommand next) : Apart next :=
  fun starts => StartsWith.apart ends (by decide) starts.2

variable {tokens next next' : List Token}

/-- The kind of the first token depends on that token only. -/
lemma startsWith_of_head {kinds : List TokenKind} (same : next'.head? = next.head?) :
    StartsWith kinds next' ↔ StartsWith kinds next := by
  cases next with
  | nil => rw [List.head?_eq_none_iff.1 same]
  | cons t next =>
    obtain ⟨more, rfl⟩ := List.head?_eq_some_iff.1 same
    exact Iff.rfl

/-- Whether tokens are adjacent depends on the first one only. -/
lemma adjacent_of_head (same : next'.head? = next.head?) : Adjacent next' ↔ Adjacent next := by
  cases next with
  | nil => rw [List.head?_eq_none_iff.1 same]
  | cons t next =>
    obtain ⟨more, rfl⟩ := List.head?_eq_some_iff.1 same
    exact Iff.rfl

/-- So does whether an argument may go on with them. -/
lemma apart_of_head (same : next'.head? = next.head?) : Apart next' ↔ Apart next :=
  not_congr (and_congr (adjacent_of_head same) (startsWith_of_head same))

/-- The first token behind a front depends on the first behind it only. -/
lemma head_append (same : next'.head? = next.head?) (tokens : List Token) :
    (tokens ++ next').head? = (tokens ++ next).head? := by
  rw [List.head?_append, List.head?_append, same]

/-- Behind a front that is not empty, it does not matter what comes next. -/
lemma Apart.append (apart : Apart next → Apart next') (h : Apart (tokens ++ next)) :
    Apart (tokens ++ next') := by
  cases tokens with
  | nil => exact apart h
  | cons t tokens => exact h

/-- The same for what ends a command. -/
lemma EndsCommand.append (ends : EndsCommand next → EndsCommand next')
    (h : EndsCommand (tokens ++ next)) : EndsCommand (tokens ++ next') := by
  cases tokens with
  | nil => exact ends h
  | cons t tokens => exact h

namespace Grammar

/-- Statements are derived from the symbol, or nothing is. -/
def Symbol.Stated : Symbol → Prop
  | statement | separated | statements | script => True
  | many symbol => symbol.Stated
  | name | callTail | piece | adjacentPiece | argument | parameters => False

variable {symbol : Symbol} {d : Derivation symbol}

/-- A derivation is proper in front of other tokens, too, if they keep its last argument apart and its
last command ended. -/
lemma Derivation.Proper.behind (proper : d.Proper next) (apart : Apart next → Apart next')
    (ends : symbol.Stated → EndsCommand next → EndsCommand next') : d.Proper next' := by
  induction d generalizing next next' with
  | literal token => exact proper
  | substitution sigil tail ih => exact ⟨proper.1, ih proper.2 apart nofun⟩
  | reference sigil name ih => exact ⟨proper.1, ih proper.2 apart nofun⟩
  | callTail opener name args closer ihName ihArgs =>
    obtain ⟨lawful, properName, properArgs⟩ := proper
    exact ⟨lawful, ihName properName (Apart.append id) nofun, ihArgs properArgs id nofun⟩
  | vectorCall sigil tail ih => exact ⟨proper.1, ih proper.2 apart nofun⟩
  | vectorReference sigil name ih => exact ⟨proper.1, ih proper.2 apart nofun⟩
  | plain name ih => exact ⟨proper.1, ih proper.2 apart nofun⟩
  | adjacent piece ih => exact ⟨proper.1, ih proper.2 apart nofun⟩
  | argument first rest ihFirst ihRest =>
    obtain ⟨⟨-, whole⟩, properFirst, properRest⟩ := proper
    exact ⟨⟨trivial, apart whole⟩, ihFirst properFirst (Apart.append apart) nofun,
      ihRest properRest apart nofun⟩
  | noParameters => exact proper
  | parameters opener args closer ih => exact ⟨proper.1, ih proper.2 id nofun⟩
  | block opener body closer ih => exact ⟨proper.1, ih proper.2 id fun _ => id⟩
  | control sigil name params body ihName ihParams ihBody =>
    obtain ⟨lawful, properName, properParams, properBody⟩ := proper
    exact ⟨lawful, ihName properName (Apart.append (Apart.append apart)) nofun,
      ihParams properParams (Apart.append apart) nofun, ihBody properBody apart ends⟩
  | command name args ihName ihArgs =>
    obtain ⟨⟨ended, -⟩, properName, properArgs⟩ := proper
    exact ⟨⟨ends trivial ended, trivial⟩, ihName properName (Apart.append apart) nofun,
      ihArgs properArgs apart nofun⟩
  | separated separators statement ih => exact ⟨proper.1, ih proper.2 apart ends⟩
  | statements body separators ih =>
    exact ⟨proper.1, ih proper.2 (Apart.append apart) fun _ => EndsCommand.append (ends trivial)⟩
  | script body marker ih => exact ⟨proper.1, ih proper.2 id fun _ => id⟩
  | nil => exact proper
  | cons first rest ihFirst ihRest =>
    obtain ⟨lawful, properFirst, properRest⟩ := proper
    refine ⟨lawful, ihFirst properFirst (Apart.append apart) ?_, ihRest properRest apart ends⟩
    exact fun stated => EndsCommand.append (ends stated)

/-- Only the first of the tokens behind a derivation matters. -/
lemma Derivation.Proper.of_head (proper : d.Proper next) (same : next'.head? = next.head?) :
    d.Proper next' :=
  proper.behind (apart_of_head same).2 fun _ => (startsWith_of_head same).2

end Grammar

end Scriptlet
