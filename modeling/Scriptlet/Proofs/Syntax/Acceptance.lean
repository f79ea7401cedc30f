import Scriptlet.Proofs.Syntax.Completeness
import Scriptlet.Proofs.Syntax.Literals
import Scriptlet.Proofs.Syntax.Unambiguous
import Scriptlet.Syntax.Script

/-!
# What the parser accepts

A list of tokens that ends with its only end marker is read exactly if it has a proper derivation,
which is then the only one, and what is read is the tree of that derivation.
-/

namespace Scriptlet.Grammar

/-- The list ends with its only end marker. -/
def EndsOnce (tokens : List Token) : Prop :=
  ∃ front marker, tokens = front ++ [marker] ∧ marker.kind = .endMarker ∧
    ∀ t ∈ front, t.kind ≠ .endMarker

/-- A parse succeeds if its rule is done, whatever is left. -/
lemma finish_eq_ok {α : Type} {tokens : List Token} {step : Step α} {value : α} :
    finish tokens step = .ok value ↔ ∃ rest, step = .done value rest := by
  cases step with
  | done first rest => simp [finish]
  | absent => simp [finish]
  | failed error => simp [finish]

/-- Nothing follows the only end marker. -/
lemma EndsOnce.nothing_behind {tokens rest : List Token} {marker : Token}
    (kind : marker.kind = .endMarker) (ends : EndsOnce (tokens ++ marker :: rest)) : rest = [] := by
  obtain ⟨front, last, split, -, before⟩ := ends
  by_contra left
  -- otherwise the marker is not the last token
  have inner : tokens ++ marker :: rest.dropLast = front := by
    have shorter := congrArg List.dropLast split
    rwa [List.dropLast_append_cons, List.dropLast_cons_of_ne_nil left, List.dropLast_concat]
      at shorter
  exact before marker (by simp [← inner]) kind

/-- Behind a script, nothing is left of a list that ends with its only end marker. -/
lemma EndsOnce.rest_eq_nil {d : Derivation .script} {rest : List Token} (proper : d.Proper rest)
    (ends : EndsOnce (d.tokens ++ rest)) : rest = [] := by
  cases d with
  | script body marker =>
    rw [Derivation.tokens, List.append_assoc] at ends
    exact ends.nothing_behind proper.1.1

/-- Without a limit there is room for every derivation. -/
lemma room_enough {limit : Nat} (d : Derivation .script)
    (fits : limit = 0 ∨ Statement.roomAll d.tree ≤ limit) :
    Statement.roomAll d.tree ≤ room limit d.tokens := by
  have most : Statement.roomAll d.tree ≤ d.tokens.length + 1 + 1 := d.needs_between.2
  rw [room]
  split <;> omega

/-- The parser reads the tree of every proper derivation that its limit leaves room for. -/
lemma parseTokens_tokens {limit : Nat} (d : Derivation .script) (proper : d.Proper [])
    (fits : limit = 0 ∨ Statement.roomAll d.tree ≤ limit) :
    parseTokens limit d.tokens = .ok d.tree := by
  have read : script limit (room limit d.tokens) (d.tokens ++ []) = .done d.tree [] :=
    d.read proper trivial (room_enough d fits)
  rw [List.append_nil] at read
  exact finish_eq_ok.2 ⟨[], read⟩

/-- What the parser reads is what the grammar derives. -/
lemma parseTokens_eq_ok {tokens : List Token} (ends : EndsOnce tokens)
    {body : List (Statement Token)} :
    parseTokens 0 tokens = .ok body ↔
      ∃ d : Derivation .script, d.Proper [] ∧ d.tokens = tokens ∧ d.tree = body := by
  constructor
  · intro read
    obtain ⟨rest, done⟩ := finish_eq_ok.1 read
    obtain ⟨d, proper, rfl, rfl⟩ := script_reads _ done
    obtain rfl := ends.rest_eq_nil proper
    exact ⟨d, proper, (List.append_nil _).symm, rfl⟩
  · rintro ⟨d, proper, rfl, rfl⟩
    exact parseTokens_tokens d proper (.inl rfl)

/-- The parser accepts exactly its grammar: a list of tokens is read if and only if it has a proper
derivation, in which every argument is as long as it can be; that derivation is the only one; what is
read is its tree; and the literals of the tree are the literals of the list, in their order. -/
theorem parser_accepts_grammar {tokens : List Token} (ends : EndsOnce tokens) :
    (∀ body, parseTokens 0 tokens = .ok body ↔
      ∃ d : Derivation .script, d.Proper [] ∧ d.tokens = tokens ∧ d.tree = body) ∧
    (∀ d d' : Derivation .script, d.Proper [] → d.tokens = tokens → d'.Proper [] →
      d'.tokens = tokens → d = d') ∧
    ∀ body, parseTokens 0 tokens = .ok body →
      ((Node.script body).outline.findAll .literal).filterMap Outline.origin =
        tokens.filter Token.isLiteral := by
  refine ⟨fun body => parseTokens_eq_ok ends, ?_, ?_⟩
  · intro d d' proper derived proper' derived'
    exact (d.unique d' proper proper' trivial trivial (by rw [derived, derived'])).1
  · intro body read
    obtain ⟨d, proper, rfl, rfl⟩ := (parseTokens_eq_ok ends).1 read
    rw [Outline.findAll_origins, ← d.literals proper]
    exact Outline.literalTokens_node (by decide) _ _ _

/-- The tokens of a command with a variable. -/
def printTokens : List Token :=
  [⟨.literal, "print", ⟨⟨0, 0⟩, ⟨0, 5⟩⟩, false⟩, ⟨.dollar, "$", ⟨⟨0, 6⟩, ⟨0, 7⟩⟩, true⟩,
    ⟨.literal, "x", ⟨⟨0, 7⟩, ⟨0, 8⟩⟩, false⟩, ⟨.endMarker, "", ⟨⟨0, 8⟩, ⟨0, 8⟩⟩, false⟩]

/-- The tokens end with their only end marker. -/
lemma printTokens_endsOnce : EndsOnce printTokens :=
  ⟨printTokens.take 3, ⟨.endMarker, "", ⟨⟨0, 8⟩, ⟨0, 8⟩⟩, false⟩, rfl, rfl, by decide⟩

/-- The tokens of a command with a reference have a derivation, and its tree is the command. -/
theorem print_derived : EndsOnce printTokens ∧
    ∃ d : Derivation .script, d.Proper [] ∧ d.tokens = printTokens ∧
      d.tree.map (fun s => s.map Token.lexeme) =
        [.command (.literal "print" "print") [.reference "$" (.literal "x" "x")]] := by
  have read : parseTokens 0 printTokens = .ok _ := rfl
  obtain ⟨d, proper, derived, tree⟩ := ((parser_accepts_grammar printTokens_endsOnce).1 _).1 read
  exact ⟨printTokens_endsOnce, d, proper, derived, by rw [tree]; rfl⟩

end Scriptlet.Grammar

namespace Scriptlet.Script

/-- What is read from a text is what is read from its tokens. -/
lemma parse_eq_ok {options : Options} {limit : Nat} {source : String}
    {script : Script} (read : parse options limit source = .ok script) :
    ∃ tokens, tokenize options source = .ok tokens ∧
      Grammar.parseTokens limit tokens = .ok script.body := by
  rw [parse] at read
  cases split : tokenize options source with
  | error error =>
    rw [split] at read
    cases read
  | ok tokens =>
    rw [split] at read
    change (Grammar.parseTokens limit tokens >>= _) = _ at read
    cases built : Grammar.parseTokens limit tokens with
    | error error =>
      rw [built] at read
      cases read
    | ok body =>
      rw [built] at read
      cases read
      exact ⟨tokens, rfl, built⟩

end Scriptlet.Script
