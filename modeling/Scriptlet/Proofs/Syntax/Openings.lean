import Scriptlet.Proofs.Syntax.Derivation

/-!
# How symbols begin

The first token tells whether a symbol may begin there (`Symbol.Begins`): what is derived from the
symbol begins so (`Derivation.begins`), and a rule of the symbol is absent from all other tokens.
-/

namespace Scriptlet.Grammar

open Rule

/-- The kinds of the tokens with which pieces start that may name a variable. -/
def nameKinds : List TokenKind :=
  [.literal, .quoted, .dollar]

/-- The kinds of the tokens with which statements start. -/
def statementKinds : List TokenKind :=
  .openBrace :: .bang :: pieceKinds

namespace Symbol

/-- The symbol may be derived to the first of the tokens. -/
def Begins : Symbol → List Token → Prop
  | name, tokens => StartsWith nameKinds tokens
  | callTail, tokens => Adjacent tokens ∧ StartsWith [.openParen] tokens
  | piece, tokens | argument, tokens => StartsWith pieceKinds tokens
  | adjacentPiece, tokens => Adjacent tokens ∧ StartsWith pieceKinds tokens
  | statement, tokens => StartsWith statementKinds tokens
  | separated, tokens => StartsWith statementKinds (tokens.dropWhile fun t => t.kind = .separator)
  | parameters, _ | statements, _ | script, _ | many _, _ => True

/-- What is derived from the symbol cannot go on with the first of the tokens. -/
def Closed : Symbol → List Token → Prop
  | parameters, next => ¬ StartsWith [.openParen] next
  | statements, next => ¬ StartsWith (.separator :: statementKinds) next
  | many symbol, next => ¬ symbol.Begins next
  | _, _ => True

/-- A symbol that does not begin everywhere needs a first token. -/
lemma not_begins_nil {symbol : Symbol} {tokens : List Token} (h : ¬ symbol.Begins tokens) :
    ¬ symbol.Begins [] := by
  cases symbol with
  | name | piece | argument | statement | separated => exact id
  | callTail | adjacentPiece => exact And.left
  | parameters | statements | script | many _ => exact absurd trivial h

end Symbol

/-- A symbol that needs a first token is closed before anything. -/
lemma Symbol.closed_of_not_begins {symbol : Symbol} {tokens : List Token}
    (h : ¬ symbol.Begins tokens) (next : List Token) : symbol.Closed next := by
  cases symbol with
  | name | callTail | piece | adjacentPiece | argument | statement | separated => trivial
  | parameters | statements | script | many _ => exact absurd trivial h

/-- Tokens that start in some way are some. -/
lemma startsWith_ne_nil {kinds : List TokenKind} {tokens : List Token}
    (h : StartsWith kinds tokens) : tokens ≠ [] := by
  rintro rfl
  exact h

/-- What starts a piece starts a statement. -/
lemma pieceKinds_subset : pieceKinds ⊆ statementKinds := by
  decide

/-- What starts a name starts a piece. -/
lemma nameKinds_subset : nameKinds ⊆ pieceKinds := by
  decide

/-- Without a separator in front, none is passed over. -/
lemma dropWhile_of_not_startsWith {tokens : List Token} (h : ¬ StartsWith [.separator] tokens) :
    tokens.dropWhile (fun t => t.kind = .separator) = tokens := by
  cases tokens with
  | nil => rfl
  | cons t tokens =>
    refine List.dropWhile_cons_of_neg ?_
    simpa using fun same => h (startsWith_cons same)

/-- Behind the separators there is none. -/
lemma not_startsWith_dropWhile {tokens : List Token} :
    ¬ StartsWith [.separator] (tokens.dropWhile fun t => t.kind = .separator) := by
  intro starts
  have dropped := List.head?_dropWhile_not (fun t : Token => t.kind = .separator) tokens
  cases left : tokens.dropWhile (fun t => t.kind = .separator) with
  | nil => exact startsWith_ne_nil starts left
  | cons t rest =>
    rw [left] at starts dropped
    exact absurd (List.mem_singleton.1 starts) (by simpa using dropped)

/-- No statement starts with a separator. -/
lemma dropWhile_of_startsWith {tokens : List Token} (h : StartsWith statementKinds tokens) :
    tokens.dropWhile (fun t => t.kind = .separator) = tokens :=
  dropWhile_of_not_startsWith (h.apart (by decide))

/-- Separators in front do not change what comes behind them. -/
lemma dropWhile_separators {separators tokens : List Token}
    (h : ∀ t ∈ separators, t.kind = .separator) :
    (separators ++ tokens).dropWhile (fun t => t.kind = .separator) =
      tokens.dropWhile fun t => t.kind = .separator :=
  List.dropWhile_append_of_pos (by simpa using h)

/-- A symbol that begins with some tokens begins with more. -/
lemma Symbol.Begins.append {symbol : Symbol} {tokens : List Token} (h : symbol.Begins tokens)
    (next : List Token) : symbol.Begins (tokens ++ next) := by
  cases symbol with
  | name | piece | argument | statement => exact StartsWith.append h next
  | callTail | adjacentPiece => exact ⟨h.1.append next, h.2.append next⟩
  | separated =>
    have start : StartsWith statementKinds (tokens.dropWhile fun t => t.kind = .separator) := h
    have left := startsWith_ne_nil start
    show StartsWith statementKinds ((tokens ++ next).dropWhile _)
    rw [List.dropWhile_append, if_neg (by simpa using left)]
    exact start.append next
  | parameters | statements | script | many _ => trivial

namespace Derivation

variable {symbol : Symbol}

/-- What is derived from a symbol begins as the symbol does. -/
theorem begins (d : Derivation symbol) {next : List Token} (proper : d.Proper next) :
    symbol.Begins d.tokens := by
  induction d generalizing next with
  | literal token =>
    obtain kind | kind := isLiteral_iff.1 proper.1
    · simp [Symbol.Begins, tokens, StartsWith, nameKinds, kind]
    · simp [Symbol.Begins, tokens, StartsWith, nameKinds, kind]
  | substitution sigil tail _ =>
    have kind : sigil.kind = .dollar := proper.1.1
    simp [Symbol.Begins, tokens, StartsWith, nameKinds, kind]
  | reference sigil name _ =>
    have kind : sigil.kind = .dollar := proper.1.1.1
    simp [Symbol.Begins, tokens, StartsWith, nameKinds, kind]
  | callTail opener name args closer _ _ =>
    obtain ⟨kind, near, _⟩ : opener.kind = .openParen ∧ opener.spaced = false ∧ _ := proper.1.1
    exact ⟨near, by simp [StartsWith, kind]⟩
  | vectorCall sigil tail _ =>
    have kind : sigil.kind = .vector := proper.1.1
    simp [Symbol.Begins, tokens, StartsWith, pieceKinds, kind]
  | vectorReference sigil name _ =>
    have kind : sigil.kind = .vector := proper.1.1.1
    simp [Symbol.Begins, tokens, StartsWith, pieceKinds, kind]
  | plain name ih => exact (ih proper.2).mono nameKinds_subset
  | adjacent piece ih => exact ⟨proper.1.1, ih proper.2⟩
  | argument first rest ih _ => exact (ih proper.2.1).append _
  | block opener body closer _ =>
    have kind : opener.kind = .openBrace := proper.1.1.1
    simp [Symbol.Begins, tokens, StartsWith, statementKinds, kind]
  | control sigil name params body _ _ _ =>
    have kind : sigil.kind = .bang := proper.1.1.1
    simp [Symbol.Begins, tokens, StartsWith, statementKinds, kind]
  | command name args ih _ => exact ((ih proper.2.1).mono pieceKinds_subset).append _
  | separated separators statement ih =>
    show StartsWith statementKinds ((separators ++ statement.tokens).dropWhile _)
    rw [dropWhile_separators proper.1.1, dropWhile_of_startsWith (ih proper.2)]
    exact ih proper.2
  | noParameters | parameters | statements | script | nil | cons => trivial

/-- Arguments end at a closing parenthesis. -/
lemma stops_many {closer : Token} (closes : closer.kind = .closeParen) {next : List Token} :
    ¬ Symbol.argument.Begins (closer :: next) := by
  show ¬ StartsWith pieceKinds (closer :: next)
  exact (startsWith_cons closes).apart (by decide)

/-- Statements end at a closing brace and at the end. -/
lemma stops_statements {closer : Token}
    (closes : closer.kind = .closeBrace ∨ closer.kind = .endMarker) {next : List Token} :
    Symbol.statements.Closed (closer :: next) := by
  show ¬ StartsWith (.separator :: statementKinds) (closer :: next)
  obtain closes | closes := closes
  · exact (startsWith_cons closes).apart (by decide)
  · exact (startsWith_cons closes).apart (by decide)

/-- A control call that has no parameters goes on with its body, which no parenthesis starts. -/
lemma stops_parameters {body : Derivation .statement} {next : List Token}
    (proper : body.Proper next) : Symbol.parameters.Closed (body.tokens ++ next) :=
  StartsWith.apart ((body.begins proper).append next) (by decide)

/-- Behind statements there is at most a number of separators. -/
lemma stops_separated {separators next : List Token} (kinds : ∀ t ∈ separators, t.kind = .separator)
    (closed : Symbol.statements.Closed next) : ¬ Symbol.separated.Begins (separators ++ next) := by
  have noSeparator : ¬ StartsWith [.separator] next := fun more => closed (more.mono (by decide))
  rw [Symbol.Begins, dropWhile_separators kinds, dropWhile_of_not_startsWith noSeparator]
  exact fun more => closed (more.mono (List.subset_cons_self _ _))

end Derivation

section Absent

variable {limit room : Nat} {tokens : List Token} {name argument : Rule (Word Token)}

/-- Tokens start with one of two lists of kinds if they do with either. -/
lemma startsWith_append_iff {kinds more : List TokenKind} :
    StartsWith (kinds ++ more) tokens ↔ StartsWith kinds tokens ∨ StartsWith more tokens := by
  cases tokens with
  | nil => exact (or_self_iff).symm
  | cons t tokens => exact List.mem_append

/-- A literal is absent where neither kind of literal is. -/
lemma literal_eq_absent : literal tokens = .absent ↔ ¬ StartsWith [.literal, .quoted] tokens := by
  cases tokens with
  | nil => simp [literal, StartsWith]
  | cons t tokens =>
    rw [literal]
    cases h : t.kind <;> simp [StartsWith, h]

/-- The tail of a call is absent where no parenthesis is adjacent. -/
lemma callTail_eq_absent (h : ¬ Symbol.callTail.Begins tokens) :
    callTail argument tokens = .absent := by
  rw [callTail, bind_eq_absent]
  exact .inl (adjacent_eq_absent fun near => token_eq_absent.2 fun opens => h ⟨near, opens⟩)

/-- A reference is absent where no dollar is. -/
lemma reference_eq_absent :
    reference name tokens = .absent ↔ ¬ StartsWith [.dollar] tokens := by
  rw [reference, bind_eq_absent, token_eq_absent, or_iff_left]
  rintro ⟨sigil, middle, -, h⟩
  -- behind the sigil the rule is committed
  obtain h | ⟨_, _, _, h⟩ := bind_eq_absent.1 h
  · exact commit_ne_absent h
  · cases h

/-- A name is absent where none begins. -/
lemma name_eq_absent :
    Grammar.name name argument tokens = .absent ↔ ¬ StartsWith nameKinds tokens := by
  show _ ↔ ¬ StartsWith ([.literal, .quoted] ++ [.dollar]) tokens
  rw [Grammar.name, or_eq_absent, or_eq_absent, literal_eq_absent, reference_eq_absent,
    startsWith_append_iff, not_or]
  constructor
  · exact fun h => ⟨h.1, h.2.2⟩
  · exact fun h => ⟨h.1, bind_eq_absent.2 (.inl (token_eq_absent.2 h.2)), h.2⟩

/-- A vector expansion is absent where its sign is not. -/
lemma vector_eq_absent :
    vector name argument tokens = .absent ↔ ¬ StartsWith [.vector] tokens := by
  rw [vector, bind_eq_absent, token_eq_absent, or_iff_left]
  rintro ⟨sigil, middle, -, h⟩
  obtain h | ⟨_, _, _, h⟩ := bind_eq_absent.1 h
  · obtain h | ⟨_, _, _, h⟩ := bind_eq_absent.1 (or_eq_absent.1 h).2
    · exact commit_ne_absent h
    · cases h
  · cases h

/-- With room, a name is absent where none begins. -/
lemma nameAt_eq_absent (enough : 0 < room) :
    nameAt limit room tokens = .absent ↔ ¬ StartsWith nameKinds tokens := by
  cases room with
  | zero => cases enough
  | succ room =>
    rw [nameAt]
    exact name_eq_absent

/-- With room, a piece is absent where none begins. -/
lemma pieceAt_eq_absent (enough : 0 < room) :
    pieceAt limit room tokens = .absent ↔ ¬ StartsWith pieceKinds tokens := by
  cases room with
  | zero => cases enough
  | succ room =>
    have noPiece : ¬ StartsWith pieceKinds tokens ↔
        ¬ StartsWith [.vector] tokens ∧ ¬ StartsWith nameKinds tokens := by
      show ¬ StartsWith (nameKinds ++ [.vector]) tokens ↔ _
      rw [startsWith_append_iff, not_or, and_comm]
    rw [pieceAt, noPiece]
    exact or_eq_absent.trans (and_congr vector_eq_absent name_eq_absent)

/-- Without room, a piece fails, so it is absent only where none begins. -/
lemma pieceAt_absent (h : pieceAt limit room tokens = .absent) :
    ¬ StartsWith pieceKinds tokens := by
  cases room with
  | zero => cases h
  | succ room => exact (pieceAt_eq_absent (Nat.succ_pos room)).1 h

/-- With room, an argument is absent where no piece begins. -/
lemma argumentAt_eq_absent (enough : 0 < room) (h : ¬ StartsWith pieceKinds tokens) :
    argumentAt limit room tokens = .absent :=
  bind_eq_absent.2 (.inl ((pieceAt_eq_absent enough).2 h))

/-- With room for a statement and its first piece, a statement is absent where none begins. -/
lemma statementAt_eq_absent (enough : 1 < room) (h : ¬ StartsWith statementKinds tokens) :
    statementAt limit room tokens = .absent := by
  cases room with
  | zero => cases enough
  | succ room =>
    have noBrace : ¬ StartsWith [.openBrace] tokens := fun e => h (e.mono (by decide))
    have noBang : ¬ StartsWith [.bang] tokens := fun e => h (e.mono (by decide))
    have noPiece : ¬ StartsWith pieceKinds tokens := fun e => h (e.mono pieceKinds_subset)
    rw [statementAt, or_eq_absent, or_eq_absent]
    refine ⟨?_, ?_, ?_⟩
    · exact bind_eq_absent.2 (.inl (token_eq_absent.2 noBrace))
    · exact bind_eq_absent.2 (.inl (token_eq_absent.2 noBang))
    · exact bind_eq_absent.2 (.inl (argumentAt_eq_absent (Nat.lt_of_succ_lt_succ enough) noPiece))

end Absent

end Scriptlet.Grammar
