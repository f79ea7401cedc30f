import Scriptlet.Proofs.Syntax.Commands

/-!
# Literal arguments

Which arguments are single literals is seen from the tokens. A literal to which no piece is added is
an argument of its own (`Derivation.arguments_prefix`), and an argument that is read as a literal is
that one token (`Derivation.arguments_split`).
-/

namespace Scriptlet.Grammar

/-- A piece is added to an argument that ends in front of the tokens. -/
def Added (tokens : List Token) : Prop :=
  Adjacent tokens ∧ StartsWith pieceKinds tokens

variable {token : Token} {more later next literals : List Token}

/-- Nothing is added to an argument across a space. -/
lemma not_added_of_spaced (spaced : token.spaced = true) : ¬ Added (token :: later) := by
  intro added
  have near : token.spaced = false := added.1
  rw [spaced] at near
  cases near

namespace Derivation

/-- A piece that starts with a literal is that literal. -/
lemma piece_literal (d : Derivation .piece) (proper : d.Proper next)
    (split : d.tokens ++ more = token :: later) (literal : token.kind = .literal) :
    d.tree = token.toWord ∧ more = later := by
  have apart : ∀ {kind : TokenKind}, token.kind = kind → kind ≠ .literal → False :=
    fun same other => other (same.symm.trans literal)
  cases d with
  | vectorCall sigil tail =>
    obtain ⟨rfl, -⟩ := List.cons.inj split
    exact (apart proper.1.1 (by decide)).elim
  | vectorReference sigil name =>
    obtain ⟨rfl, -⟩ := List.cons.inj split
    exact (apart proper.1.1.1 (by decide)).elim
  | plain name =>
    cases name with
    | literal t =>
      obtain ⟨rfl, rfl⟩ := List.cons.inj split
      exact ⟨rfl, rfl⟩
    | substitution sigil tail =>
      obtain ⟨rfl, -⟩ := List.cons.inj split
      exact (apart proper.2.1.1 (by decide)).elim
    | reference sigil name =>
      obtain ⟨rfl, -⟩ := List.cons.inj split
      exact (apart proper.2.1.1.1 (by decide)).elim

/-- An argument that starts with a literal, to which nothing is added, is that literal. -/
lemma argument_literal (d : Derivation .argument) (proper : d.Proper next)
    (split : d.tokens ++ more = token :: later) (literal : token.kind = .literal)
    (ends : ¬ Added later) : d.tree = token.toWord ∧ more = later := by
  cases d with
  | argument first rest =>
    obtain ⟨-, properFirst, properRest⟩ := proper
    rw [tokens, List.append_assoc] at split
    obtain ⟨word, behind⟩ := piece_literal first properFirst split literal
    cases rest with
    | nil => exact ⟨word, behind⟩
    | cons piece rest =>
      have begins := piece.begins properRest.2.1
      refine absurd ⟨?_, ?_⟩ ends
      · exact behind ▸ (begins.1.append rest.tokens).append more
      · exact behind ▸ (begins.2.append rest.tokens).append more

/-- No argument starts where no piece does. -/
lemma arguments_none (d : Derivation (.many .argument)) (proper : d.Proper next)
    (split : d.tokens ++ more = later) (stops : ¬ StartsWith pieceKinds later) : d.tree = [] := by
  cases d with
  | nil => rfl
  | cons first rest =>
    have begins : StartsWith pieceKinds first.tokens := first.begins proper.2.1
    exact absurd (split ▸ (begins.append rest.tokens).append more) stops

/-- Literals with something between them are arguments of their own. -/
lemma arguments_prefix (d : Derivation (.many .argument)) (proper : d.Proper next)
    (split : d.tokens ++ more = literals ++ later) (kinds : ∀ t ∈ literals, t.kind = .literal)
    (spaced : ∀ t ∈ literals.tail, t.spaced = true) (ends : ¬ Added later)
    (stops : ¬ StartsWith [.literal] more) :
    ∃ rest : Derivation (.many .argument), rest.Proper next ∧ rest.tokens ++ more = later ∧
      d.tree = literals.map Token.toWord ++ rest.tree := by
  induction literals generalizing d with
  | nil => exact ⟨d, proper, split, rfl⟩
  | cons token literals ih =>
    obtain ⟨literal, kinds⟩ := List.forall_mem_cons.1 kinds
    cases d with
    | nil =>
      have here : more = token :: (literals ++ later) := split
      exact absurd (here ▸ startsWith_cons literal) stops
    | cons first rest =>
      have apart : ¬ Added (literals ++ later) := by
        cases literals with
        | nil => exact ends
        | cons t literals => exact not_added_of_spaced (spaced t List.mem_cons_self)
      rw [tokens, List.append_assoc] at split
      obtain ⟨word, behind⟩ := argument_literal first proper.2.1 split literal apart
      obtain ⟨last, properLast, left, words⟩ :=
        ih rest proper.2.2 behind kinds fun t inside => spaced t (List.mem_of_mem_tail inside)
      refine ⟨last, properLast, left, ?_⟩
      rw [List.map_cons, List.cons_append, ← word, ← words]
      rfl

/-- An argument that is read as a literal is one token. -/
lemma tokens_of_tree (d : Derivation .argument) (word : d.tree = token.toWord) :
    d.tokens = [token] := by
  cases d with
  | argument first rest =>
    cases rest with
    | cons piece rest => cases word
    | nil =>
      have word : first.tree = token.toWord := word
      cases first with
      | vectorCall | vectorReference => cases word
      | plain name =>
        cases name with
        | literal t =>
          cases word
          rfl
        | substitution | reference => cases word

/-- The first arguments, which are read as literals, are these tokens. -/
lemma arguments_split (d : Derivation (.many .argument)) (proper : d.Proper next)
    {others : List (Word Token)} (words : d.tree = literals.map Token.toWord ++ others) :
    ∃ rest : Derivation (.many .argument), d.tokens = literals ++ rest.tokens ∧
      rest.Proper next ∧ rest.tree = others := by
  induction literals generalizing d with
  | nil => exact ⟨d, rfl, proper, words⟩
  | cons token literals ih =>
    cases d with
    | nil => cases words
    | cons first rest =>
      obtain ⟨word, words⟩ := List.cons.inj words
      obtain ⟨last, written, properLast, tree⟩ := ih rest proper.2.2 words
      refine ⟨last, ?_, properLast, tree⟩
      rw [tokens, tokens_of_tree first word, written]
      rfl

/-- A piece starts at its first token. -/
lemma piece_origin (d : Derivation .piece) :
    ∃ t more, d.tokens = t :: more ∧ d.tree.origin? = some t := by
  cases d with
  | vectorCall sigil tail => exact ⟨sigil, _, rfl, rfl⟩
  | vectorReference sigil name => exact ⟨sigil, _, rfl, rfl⟩
  | plain name =>
    cases name with
    | literal t => exact ⟨t, _, rfl, rfl⟩
    | substitution sigil tail => exact ⟨sigil, _, rfl, rfl⟩
    | reference sigil name => exact ⟨sigil, _, rfl, rfl⟩

/-- An argument starts at its first token. -/
lemma argument_origin (d : Derivation .argument) (starts : d.tree.origin? = some token) :
    ∃ more, d.tokens = token :: more := by
  cases d with
  | argument first rest =>
    obtain ⟨t, more, written, origin⟩ := piece_origin first
    have same : (glue first.tree rest.tree).origin? = first.tree.origin? := by
      cases rest with
      | nil => rfl
      | cons piece rest => rfl
    have starts : (glue first.tree rest.tree).origin? = some token := starts
    rw [same, origin] at starts
    cases starts
    exact ⟨more ++ rest.tokens, by rw [tokens, written]; rfl⟩

end Derivation

/-- The command that starts with these literals has them as its name and its first arguments. -/
lemma Inside.leading_literals {symbol : Symbol} {d : Derivation symbol}
    {name : Derivation .argument} {args : Derivation (.many .argument)} {front back : List Token}
    (inside : Inside name args d front back) (whole : d.Proper [])
    (here : d.tokens = front ++ token :: (literals ++ later)) (kind : token.kind = .literal)
    (kinds : ∀ t ∈ literals, t.kind = .literal ∧ t.spaced = true) (ends : ¬ Added later) :
    ∃ rest : Derivation (.many .argument), rest.Proper back ∧ rest.tokens ++ back = later ∧
      (token.toWord, literals.map Token.toWord ++ rest.tree) ∈ symbol.commands d.tree := by
  obtain ⟨properName, properArgs, stops⟩ := inside.proper whole
  rw [List.append_nil] at properArgs stops
  have split := List.append_cancel_left (inside.tokens.symm.trans here)
  have apart : ¬ Added (literals ++ later) := by
    cases literals with
    | nil => exact ends
    | cons t literals => exact not_added_of_spaced (kinds t List.mem_cons_self).2
  obtain ⟨word, behind⟩ := name.argument_literal properName split kind apart
  obtain ⟨rest, proper, left, words⟩ := args.arguments_prefix properArgs behind
    (fun t mem => (kinds t mem).1) (fun t mem => (kinds t (List.mem_of_mem_tail mem)).2) ends
    (stops.apart (by decide))
  refine ⟨rest, proper, left, ?_⟩
  rw [← word, ← words]
  exact inside.mem

end Scriptlet.Grammar
