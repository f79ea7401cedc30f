import Scriptlet.Proofs.Syntax.Rules
import Scriptlet.Syntax.Grammar

/-!
# When the rules of the grammar are done

For each rule of the grammar, the tokens on which it is done, in terms of the rules that it is made
of.
-/

namespace Scriptlet

/-- Whether the token is a literal, quoted or not. -/
def Token.isLiteral (t : Token) : Bool :=
  t.kind = .literal || t.kind = .quoted

namespace Grammar

open Rule

variable {tokens rest : List Token} {word : Word Token} {s : Statement Token}
  {argument piece : Rule (Word Token)} {statement : Rule (Statement Token)}

/-- A literal is quoted or not. -/
lemma isLiteral_iff {t : Token} : t.isLiteral = true ↔ t.kind = .literal ∨ t.kind = .quoted := by
  simp [Token.isLiteral]

/-- A literal is one token. -/
lemma literal_eq_done :
    literal tokens = .done word rest ↔
      ∃ t, tokens = t :: rest ∧ t.isLiteral ∧ word = .literal t t.lexeme := by
  cases tokens with
  | nil => simp [literal]
  | cons t tokens =>
    rw [literal]
    constructor
    · intro done
      split at done
      · rename_i kind
        cases done
        exact ⟨t, rfl, isLiteral_iff.2 (.inl kind), rfl⟩
      · rename_i kind
        cases done
        exact ⟨t, rfl, isLiteral_iff.2 (.inr kind), rfl⟩
      · cases done
    · rintro ⟨_, same, kind, rfl⟩
      cases same
      obtain kind | kind := isLiteral_iff.1 kind
      · rw [kind]
      · rw [kind]

/-- The tail of a call is a name and arguments between an adjacent parenthesis and a closing one. -/
lemma callTail_eq_done {call : Word Token × List (Word Token)} :
    callTail argument tokens = .done call rest ↔
      ∃ opener middle last closer, tokens = opener :: middle ∧ opener.kind = .openParen ∧
        opener.spaced = false ∧ argument middle = .done call.1 last ∧
        many argument last = .done call.2 (closer :: rest) ∧ closer.kind = .closeParen := by
  rw [callTail]
  simp only [bind_eq_done, adjacent_eq_done, token_eq_done, commit_eq_done, pure_eq_done]
  constructor
  · rintro ⟨opener, middle, ⟨near, rfl, opens⟩, name, last, named, args, _, listed, closer, _,
      ⟨rfl, closes⟩, rfl, rfl⟩
    exact ⟨opener, middle, last, closer, rfl, opens, near, named, listed, closes⟩
  · rintro ⟨opener, middle, last, closer, rfl, opens, near, named, listed, closes⟩
    exact ⟨opener, middle, ⟨near, rfl, opens⟩, _, last, named, _, _, listed, closer, _,
      ⟨rfl, closes⟩, rfl, rfl⟩

/-- A substitution is a dollar and the tail of a call. -/
lemma substitution_eq_done :
    substitution argument tokens = .done word rest ↔
      ∃ sigil middle call, tokens = sigil :: middle ∧ sigil.kind = .dollar ∧
        callTail argument middle = .done call rest ∧
        word = .substitution sigil call.1 call.2 := by
  rw [substitution]
  simp only [bind_eq_done, token_eq_done, pure_eq_done]
  constructor
  · rintro ⟨sigil, middle, ⟨rfl, kind⟩, call, _, called, rfl, rfl⟩
    exact ⟨sigil, middle, call, rfl, kind, called, rfl⟩
  · rintro ⟨sigil, middle, call, rfl, kind, called, rfl⟩
    exact ⟨sigil, middle, ⟨rfl, kind⟩, call, rest, called, rfl, rfl⟩

/-- A reference is a dollar and an adjacent name. -/
lemma reference_eq_done {name : Rule (Word Token)} :
    reference name tokens = .done word rest ↔
      ∃ sigil middle target, tokens = sigil :: middle ∧ sigil.kind = .dollar ∧ Adjacent middle ∧
        name middle = .done target rest ∧ word = .reference sigil target := by
  rw [reference]
  simp only [bind_eq_done, token_eq_done, commit_eq_done, adjacent_eq_done, pure_eq_done]
  constructor
  · rintro ⟨sigil, middle, ⟨rfl, kind⟩, target, _, ⟨near, named⟩, rfl, rfl⟩
    exact ⟨sigil, middle, target, rfl, kind, near, named, rfl⟩
  · rintro ⟨sigil, middle, target, rfl, kind, near, named, rfl⟩
    exact ⟨sigil, middle, ⟨rfl, kind⟩, target, rest, ⟨near, named⟩, rfl, rfl⟩

/-- A name is a literal, a substitution or a reference, tried in this order. -/
lemma name_eq_done {name : Rule (Word Token)} :
    Grammar.name name argument tokens = .done word rest ↔
      literal tokens = .done word rest ∨
        literal tokens = .absent ∧ (substitution argument tokens = .done word rest ∨
          substitution argument tokens = .absent ∧ reference name tokens = .done word rest) := by
  rw [Grammar.name, or_eq_done, or_eq_done]

/-- A vector expansion is its sign, and the tail of a call or an adjacent name. -/
lemma vector_eq_done {name : Rule (Word Token)} :
    vector name argument tokens = .done word rest ↔
      ∃ sigil middle target, tokens = sigil :: middle ∧ sigil.kind = .vector ∧
        word = .vector sigil target ∧
        ((∃ call, callTail argument middle = .done call rest ∧
            target = .substitution sigil call.1 call.2) ∨
          callTail argument middle = .absent ∧ Adjacent middle ∧
            ∃ inner, name middle = .done inner rest ∧ target = .reference sigil inner) := by
  rw [vector]
  simp only [bind_eq_done, token_eq_done, or_eq_done, vectorCall, vectorReference, commit_eq_done,
    adjacent_eq_done, pure_eq_done, bind_eq_absent]
  constructor
  · rintro ⟨sigil, middle, ⟨rfl, kind⟩, target, _, ⟨call, _, called, rfl, rfl⟩ |
      ⟨noCall, inner, _, ⟨near, named⟩, rfl, rfl⟩, rfl, rfl⟩
    · exact ⟨sigil, middle, _, rfl, kind, rfl, .inl ⟨call, called, rfl⟩⟩
    · obtain noCall | ⟨_, _, _, h⟩ := noCall
      · exact ⟨sigil, middle, _, rfl, kind, rfl, .inr ⟨noCall, near, inner, named, rfl⟩⟩
      · cases h
  · rintro ⟨sigil, middle, target, rfl, kind, rfl, ⟨call, called, rfl⟩ |
      ⟨noCall, near, inner, named, rfl⟩⟩
    · exact ⟨sigil, middle, ⟨rfl, kind⟩, _, rest, .inl ⟨call, rest, called, rfl, rfl⟩, rfl, rfl⟩
    · exact ⟨sigil, middle, ⟨rfl, kind⟩, _, rest,
        .inr ⟨.inl noCall, inner, rest, ⟨near, named⟩, rfl, rfl⟩, rfl, rfl⟩

/-- An argument is pieces that are adjacent. -/
lemma argument_eq_done :
    Grammar.argument piece tokens = .done word rest ↔
      ∃ first middle pieces, piece tokens = .done first middle ∧
        many (adjacent piece) middle = .done pieces rest ∧ word = glue first pieces := by
  rw [Grammar.argument]
  simp only [bind_eq_done, pure_eq_done]
  constructor
  · rintro ⟨first, middle, read, pieces, _, glued, rfl, rfl⟩
    exact ⟨first, middle, pieces, read, glued, rfl⟩
  · rintro ⟨first, middle, pieces, read, glued, rfl⟩
    exact ⟨first, middle, read, pieces, rest, glued, rfl, rfl⟩

/-- Arguments in parentheses stand between them. -/
lemma parenthesized_eq_done {args : List (Word Token)} :
    parenthesized argument tokens = .done args rest ↔
      ∃ opener middle closer, tokens = opener :: middle ∧ opener.kind = .openParen ∧
        many argument middle = .done args (closer :: rest) ∧ closer.kind = .closeParen := by
  rw [parenthesized]
  simp only [bind_eq_done, token_eq_done, commit_eq_done, pure_eq_done]
  constructor
  · rintro ⟨opener, middle, ⟨rfl, opens⟩, _, _, listed, closer, _, ⟨rfl, closes⟩, rfl, rfl⟩
    exact ⟨opener, middle, closer, rfl, opens, listed, closes⟩
  · rintro ⟨opener, middle, closer, rfl, opens, listed, closes⟩
    exact ⟨opener, middle, ⟨rfl, opens⟩, args, _, listed, closer, rest, ⟨rfl, closes⟩, rfl, rfl⟩

/-- A statement may have separators in front. -/
lemma separated_eq_done :
    separated statement tokens = .done s rest ↔
      statement (tokens.dropWhile fun t => t.kind = .separator) = .done s rest := by
  rw [separated, bind_eq_done]
  constructor
  · rintro ⟨_, _, dropped, stated⟩
    cases dropped
    exact stated
  · exact fun stated => ⟨(), _, rfl, stated⟩

/-- Statements may have separators behind the last. -/
lemma statements_eq_done {body : List (Statement Token)} :
    statements statement tokens = .done body rest ↔
      ∃ middle, many (separated statement) tokens = .done body middle ∧
        middle.dropWhile (fun t => t.kind = .separator) = rest := by
  rw [statements]
  simp only [bind_eq_done, pure_eq_done]
  constructor
  · rintro ⟨_, middle, listed, _, _, dropped, rfl, rfl⟩
    cases dropped
    exact ⟨middle, listed, rfl⟩
  · rintro ⟨middle, listed, rfl⟩
    exact ⟨body, middle, listed, (), _, rfl, rfl, rfl⟩

/-- A block is statements between braces. -/
lemma block_eq_done :
    block statement tokens = .done s rest ↔
      ∃ opener middle body closer, tokens = opener :: middle ∧ opener.kind = .openBrace ∧
        statements statement middle = .done body (closer :: rest) ∧ closer.kind = .closeBrace ∧
        s = .block opener body := by
  rw [block]
  simp only [bind_eq_done, token_eq_done, commit_eq_done, pure_eq_done]
  constructor
  · rintro ⟨opener, middle, ⟨rfl, opens⟩, body, _, listed, closer, _, ⟨rfl, closes⟩, rfl, rfl⟩
    exact ⟨opener, middle, body, closer, rfl, opens, listed, closes, rfl⟩
  · rintro ⟨opener, middle, body, closer, rfl, opens, listed, closes, rfl⟩
    exact ⟨opener, middle, ⟨rfl, opens⟩, body, _, listed, closer, rest, ⟨rfl, closes⟩, rfl, rfl⟩

/-- A control call is its sigil, an adjacent name, optional arguments and a statement. -/
lemma control_eq_done :
    control argument statement tokens = .done s rest ↔
      ∃ sigil middle name more args last body, tokens = sigil :: middle ∧ sigil.kind = .bang ∧
        Adjacent middle ∧ argument middle = .done name more ∧
        optional (parenthesized argument) more = .done args last ∧
        statement last = .done body rest ∧ s = .control sigil name (args.getD []) body := by
  rw [control]
  simp only [bind_eq_done, token_eq_done, commit_eq_done, adjacent_eq_done, pure_eq_done]
  constructor
  · rintro ⟨sigil, middle, ⟨rfl, kind⟩, name, more, ⟨near, named⟩, args, last, listed, body, _,
      controlled, rfl, rfl⟩
    exact ⟨sigil, middle, name, more, args, last, body, rfl, kind, near, named, listed, controlled,
      rfl⟩
  · rintro ⟨sigil, middle, name, more, args, last, body, rfl, kind, near, named, listed, controlled,
      rfl⟩
    exact ⟨sigil, middle, ⟨rfl, kind⟩, name, more, ⟨near, named⟩, args, last, listed, body, rest,
      controlled, rfl, rfl⟩

/-- The end of a command takes nothing of what ends it. -/
lemma endOfCommand_eq_done {value : Unit} :
    endOfCommand tokens = .done value rest ↔
      tokens = rest ∧ StartsWith [.separator, .closeBrace, .endMarker] tokens := by
  cases tokens with
  | nil => simp [endOfCommand, fail, StartsWith]
  | cons t tokens => cases h : t.kind <;> simp [endOfCommand, fail, StartsWith, h]

/-- A command is its name and arguments, up to what ends it. -/
lemma command_eq_done :
    command argument tokens = .done s rest ↔
      ∃ name middle args, argument tokens = .done name middle ∧
        many argument middle = .done args rest ∧
        StartsWith [.separator, .closeBrace, .endMarker] rest ∧ s = .command name args := by
  rw [command]
  simp only [bind_eq_done, endOfCommand_eq_done, pure_eq_done]
  constructor
  · rintro ⟨name, middle, named, args, _, listed, _, _, ⟨rfl, ends⟩, rfl, rfl⟩
    exact ⟨name, middle, args, named, listed, ends, rfl⟩
  · rintro ⟨name, middle, args, named, listed, ends, rfl⟩
    exact ⟨name, middle, named, args, rest, listed, (), rest, ⟨rfl, ends⟩, rfl, rfl⟩

/-- A script is statements up to the end marker. -/
lemma script_eq_done {limit room : Nat} {body : List (Statement Token)} :
    script limit room tokens = .done body rest ↔
      ∃ marker, statements (statementAt limit room) tokens = .done body (marker :: rest) ∧
        marker.kind = .endMarker := by
  rw [script]
  simp only [bind_eq_done, token_eq_done, commit_eq_done, pure_eq_done]
  constructor
  · rintro ⟨_, _, listed, marker, _, ⟨rfl, ends⟩, rfl, rfl⟩
    exact ⟨marker, listed, ends⟩
  · rintro ⟨marker, listed, ends⟩
    exact ⟨body, _, listed, marker, rest, ⟨rfl, ends⟩, rfl, rfl⟩

end Grammar

end Scriptlet
