import Scriptlet.Proofs.Syntax.Levels
import Scriptlet.Proofs.Syntax.Soundness

/-!
# What is derived is read

The rule of a symbol, given the room that the tree of a proper derivation needs, is done with that
tree, and leaves the tokens behind the derivation. Neither that repetitions are greedy nor that rules
commit themselves gets in the way. There is no need for more room than there are tokens.
-/

namespace Scriptlet.Grammar

open Rule

namespace Symbol

/-- The rule that reads the symbol. -/
def rule (limit room : Nat) : (symbol : Symbol) → Rule symbol.Value
  | name => nameAt limit room
  | callTail => Grammar.callTail (argumentAt limit room)
  | piece => pieceAt limit room
  | adjacentPiece => Rule.adjacent (pieceAt limit room)
  | argument => argumentAt limit room
  | parameters => Rule.optional (parenthesized (argumentAt limit room))
  | statement => statementAt limit room
  | separated => Grammar.separated (statementAt limit room)
  | statements => Grammar.statements (statementAt limit room)
  | script => Grammar.script limit room
  | many symbol => Rule.many (symbol.rule limit room)

/-- The room that the rule of the symbol takes before it reads a token. -/
def slack : Symbol → Nat
  | name | callTail | piece | adjacentPiece | argument | parameters => 0
  | statement | separated | statements | script => 1
  | many symbol => symbol.slack

/-- The room that the rule of the symbol needs to read what it stands for. Where a repetition ends,
one more round is tried. -/
def needs : (symbol : Symbol) → symbol.Value → Nat
  | name, word | piece, word | adjacentPiece, word | argument, word => word.room
  | callTail, call => max call.1.room (Word.roomAll call.2)
  | parameters, args => max 1 (Word.roomAll (args.getD []))
  | statement, s | separated, s => s.room
  | statements, body | script, body => Statement.roomAll body
  | many symbol, values =>
    values.foldr (fun value most => max (symbol.needs value) most) (symbol.slack + 1)

variable {limit room : Nat} {symbol : Symbol} {tokens : List Token}

/-- With room for what it does before it reads, a rule is absent where its symbol does not begin. -/
lemma rule_eq_absent (enough : symbol.slack < room) (h : ¬ symbol.Begins tokens) :
    symbol.rule limit room tokens = .absent := by
  cases symbol with
  | name => exact (nameAt_eq_absent enough).2 h
  | callTail => exact callTail_eq_absent h
  | piece => exact (pieceAt_eq_absent enough).2 h
  | adjacentPiece =>
    exact adjacent_eq_absent fun near => (pieceAt_eq_absent enough).2 fun starts => h ⟨near, starts⟩
  | argument => exact argumentAt_eq_absent enough h
  | statement => exact statementAt_eq_absent enough h
  | separated =>
    refine bind_eq_absent.2 (.inr ⟨(), _, rfl, ?_⟩)
    exact statementAt_eq_absent enough h
  | parameters | statements | script | many _ => exact absurd trivial h

/-- The rule of a symbol reads it. -/
lemma rule_reads (nonempty : ¬ symbol.Begins []) : Reads symbol (symbol.rule limit room) := by
  cases symbol with
  | name => exact (words_read room).1
  | callTail => exact callTail_reads (argumentAt_reads room)
  | piece => exact (words_read room).2
  | adjacentPiece => exact adjacent_reads (words_read room).2
  | argument => exact argumentAt_reads room
  | statement => exact statementAt_reads room
  | separated => exact separated_reads (statementAt_reads room)
  | parameters | statements | script | many _ => exact absurd trivial nonempty

end Symbol

variable {limit : Nat} {symbol : Symbol}

/-- Behind a sigil, a name is not taken for a call. -/
lemma Derivation.not_called (d : Derivation .name) {next : List Token} (proper : d.Proper next)
    (more : List Token) {argument : Rule (Word Token)} :
    Grammar.callTail argument (d.tokens ++ more) = .absent := by
  refine callTail_eq_absent fun opens => ?_
  exact StartsWith.apart ((d.begins proper).append more) (by decide) opens.2

/-- Pieces put together need the room that each of them needs. -/
lemma glue_room (first : Word Token) (rest : List (Word Token)) :
    (glue first rest).room = max first.room (Word.roomAll rest) := by
  cases rest with
  | nil => exact (Nat.max_zero _).symm
  | cons word words => rfl

/-- The most room that one of several words needs is that of them all. -/
lemma needs_words (words : List (Word Token)) :
    words.foldr (fun word most => max word.room most) 1 = max (Word.roomAll words) 1 := by
  induction words with
  | nil => rfl
  | cons word words ih => rw [List.foldr_cons, ih, Word.roomAll, Nat.max_assoc]

/-- Arguments need the room of the words. -/
lemma needs_arguments (args : List (Word Token)) :
    (Symbol.many .argument).needs args = max (Word.roomAll args) 1 :=
  needs_words args

/-- So do pieces. -/
lemma needs_pieces (pieces : List (Word Token)) :
    (Symbol.many .adjacentPiece).needs pieces = max (Word.roomAll pieces) 1 :=
  needs_words pieces

/-- Statements need the room of them all. -/
lemma needs_separated (body : List (Statement Token)) :
    (Symbol.many .separated).needs body = Statement.roomAll body := by
  show body.foldr (fun s most => max s.room most) 2 = _
  induction body with
  | nil => rfl
  | cons s body ih => rw [List.foldr_cons, ih, Statement.roomAll]

namespace Derivation

/-- There is always need for more room than the rule takes before it reads a token, and never for
much more than there are tokens. -/
lemma needs_between (d : Derivation symbol) :
    symbol.slack < symbol.needs d.tree ∧
      symbol.needs d.tree ≤ d.tokens.length + symbol.slack + 1 := by
  induction d with
  | literal token => exact ⟨Nat.one_pos, Nat.le_succ 1⟩
  | substitution sigil tail ih =>
    exact ⟨Nat.succ_pos _, Nat.succ_le_succ ih.2⟩
  | reference sigil name ih => exact ⟨Nat.succ_pos _, Nat.succ_le_succ ih.2⟩
  | callTail opener name args closer ihName ihArgs =>
    rw [needs_arguments] at ihArgs
    simp only [Symbol.slack, Symbol.needs, tree, tokens, List.length_cons, List.length_append] at *
    omega
  | vectorCall sigil tail ih => exact ⟨Nat.succ_pos _, Nat.succ_le_succ ih.2⟩
  | vectorReference sigil name ih => exact ⟨Nat.succ_pos _, Nat.succ_le_succ ih.2⟩
  | plain name ih => exact ih
  | adjacent piece ih => exact ih
  | argument first rest ihFirst ihRest =>
    rw [needs_pieces] at ihRest
    simp only [Symbol.slack, Symbol.needs, tree, tokens, List.length_append, glue_room] at *
    omega
  | noParameters => exact ⟨Nat.one_pos, Nat.le_refl 1⟩
  | parameters opener args closer ih =>
    rw [needs_arguments] at ih
    simp only [Symbol.slack, Symbol.needs, tree, tokens, List.length_cons, List.length_append,
      Option.getD_some] at *
    omega
  | block opener body closer ih =>
    simp only [Symbol.slack, Symbol.needs, tree, tokens, List.length_cons, List.length_append,
      Statement.room] at *
    omega
  | control sigil name params body ihName ihParams ihBody =>
    simp only [Symbol.slack, Symbol.needs, tree, tokens, List.length_cons, List.length_append,
      Statement.room] at *
    omega
  | command name args ihName ihArgs =>
    rw [needs_arguments] at ihArgs
    simp only [Symbol.slack, Symbol.needs, tree, tokens, List.length_append, Statement.room] at *
    omega
  | separated separators statement ih =>
    simp only [Symbol.slack, Symbol.needs, tree, tokens, List.length_append] at *
    omega
  | statements body separators ih =>
    rw [needs_separated] at ih
    simp only [Symbol.slack, Symbol.needs, tree, tokens, List.length_append] at *
    omega
  | script body marker ih =>
    simp only [Symbol.slack, Symbol.needs, tree, tokens, List.length_append] at *
    omega
  | nil =>
    simp only [Symbol.slack, Symbol.needs, tree, tokens, List.length_nil, List.foldr_nil]
    omega
  | cons first rest ihFirst ihRest =>
    simp only [Symbol.slack, Symbol.needs, tree, tokens, List.length_append, List.foldr_cons] at *
    omega

end Derivation

/-- The rule of the symbol reads the derivation wherever it is proper, given the room for its tree. -/
def Derivation.Read (limit : Nat) (d : Derivation symbol) : Prop :=
  ∀ {room : Nat} {next : List Token}, d.Proper next → symbol.Closed next →
    symbol.needs d.tree ≤ room → symbol.rule limit room (d.tokens ++ next) = .done d.tree next

namespace Derivation

/-- A literal is a name of one token. -/
lemma read_literal {token : Token} : (literal token).Read limit := by
  intro room _ proper _ enough
  obtain _ | room := room
  · cases enough
  exact name_eq_done.2 (.inl (literal_eq_done.2 ⟨token, rfl, proper.1, rfl⟩))

/-- Behind a dollar sign a call is read first. -/
lemma read_substitution {sigil : Token} {tail : Derivation .callTail} (ih : tail.Read limit) :
    (substitution sigil tail).Read limit := by
  intro room next proper _ enough
  obtain ⟨⟨kind, -⟩, properTail⟩ := proper
  obtain _ | room := room
  · cases enough
  have called : Grammar.callTail (argumentAt limit room) (tail.tokens ++ next) =
      .done tail.tree next := ih properTail trivial (Nat.le_of_succ_le_succ enough)
  have noLiteral : ¬ StartsWith [.literal, .quoted] (sigil :: (tail.tokens ++ next)) :=
    (startsWith_cons kind).apart (by decide)
  refine name_eq_done.2 (.inr ⟨literal_eq_absent.2 noLiteral, .inl ?_⟩)
  exact substitution_eq_done.2 ⟨sigil, _, _, rfl, kind, called, rfl⟩

/-- Behind a dollar sign a name is read where there is no call. -/
lemma read_reference {sigil : Token} {name : Derivation .name} (ih : name.Read limit) :
    (reference sigil name).Read limit := by
  intro room next proper _ enough
  obtain ⟨⟨⟨kind, near⟩, -⟩, properName⟩ := proper
  obtain _ | room := room
  · cases enough
  have named : nameAt limit room (name.tokens ++ next) = .done name.tree next :=
    ih properName trivial (Nat.le_of_succ_le_succ enough)
  have noLiteral : ¬ StartsWith [.literal, .quoted] (sigil :: (name.tokens ++ next)) :=
    (startsWith_cons kind).apart (by decide)
  -- the other reading of a dollar sign comes first, but no name starts with a parenthesis
  have noCall : Grammar.callTail (argumentAt limit room) (name.tokens ++ next) = .absent :=
    name.not_called properName next
  refine name_eq_done.2 (.inr ⟨literal_eq_absent.2 noLiteral, .inr ⟨?_, ?_⟩⟩)
  · exact bind_eq_absent.2 (.inr ⟨sigil, _, token_eq_done.2 ⟨rfl, kind⟩,
      bind_eq_absent.2 (.inl noCall)⟩)
  · exact reference_eq_done.2 ⟨sigil, _, _, rfl, kind, near.append next, named, rfl⟩

/-- The arguments of a call are read up to its closing parenthesis. -/
lemma read_callTail {opener : Token} {name : Derivation .argument}
    {args : Derivation (.many .argument)} {closer : Token} (ihName : name.Read limit)
    (ihArgs : args.Read limit) : (callTail opener name args closer).Read limit := by
  intro room next proper _ enough
  obtain ⟨⟨⟨opens, near, closes⟩, -⟩, properName, properArgs⟩ := proper
  obtain ⟨enoughName, enoughArgs⟩ : name.tree.room ≤ room ∧ Word.roomAll args.tree ≤ room :=
    Nat.max_le.1 enough
  have one : 1 ≤ room := name.needs_between.1.trans_le enoughName
  have named : argumentAt limit room (name.tokens ++ (args.tokens ++ closer :: next)) =
      .done name.tree (args.tokens ++ closer :: next) := ihName properName trivial enoughName
  have listed : Rule.many (argumentAt limit room) (args.tokens ++ closer :: next) =
      .done args.tree (closer :: next) :=
    ihArgs properArgs (stops_many closes) (needs_arguments _ ▸ Nat.max_le.2 ⟨enoughArgs, one⟩)
  simp only [tokens, List.cons_append, List.append_assoc, List.nil_append]
  exact callTail_eq_done.2 ⟨opener, _, _, closer, rfl, opens, near, named, listed, closes⟩

/-- Behind the sigil of a vector a call is read first. -/
lemma read_vectorCall {sigil : Token} {tail : Derivation .callTail} (ih : tail.Read limit) :
    (vectorCall sigil tail).Read limit := by
  intro room next proper _ enough
  obtain ⟨⟨kind, -⟩, properTail⟩ := proper
  obtain _ | room := room
  · cases enough
  have called : Grammar.callTail (argumentAt limit room) (tail.tokens ++ next) =
      .done tail.tree next := ih properTail trivial (Nat.le_of_succ_le_succ enough)
  refine or_eq_done.2 (.inl (vector_eq_done.2 ⟨sigil, _, _, rfl, kind, rfl, ?_⟩))
  exact .inl ⟨_, called, rfl⟩

/-- Behind the sigil of a vector a name is read where there is no call. -/
lemma read_vectorReference {sigil : Token} {name : Derivation .name} (ih : name.Read limit) :
    (vectorReference sigil name).Read limit := by
  intro room next proper _ enough
  obtain ⟨⟨⟨kind, near⟩, -⟩, properName⟩ := proper
  obtain _ | room := room
  · cases enough
  have named : nameAt limit room (name.tokens ++ next) = .done name.tree next :=
    ih properName trivial (Nat.le_of_succ_le_succ enough)
  refine or_eq_done.2 (.inl (vector_eq_done.2 ⟨sigil, _, _, rfl, kind, rfl, ?_⟩))
  exact .inr ⟨name.not_called properName next, near.append next, _, named, rfl⟩

/-- A name is read as a piece, since no vector starts like it. -/
lemma read_plain {name : Derivation .name} (ih : name.Read limit) : (plain name).Read limit := by
  intro room next proper _ enough
  obtain _ | room := room
  · exact absurd (name.needs_between.1.trans_le enough) (Nat.not_lt_zero _)
  have named : nameAt limit (room + 1) (name.tokens ++ next) = .done name.tree next :=
    ih proper.2 trivial enough
  have noVector : ¬ StartsWith [.vector] (name.tokens ++ next) :=
    StartsWith.apart ((name.begins proper.2).append next) (by decide)
  exact or_eq_done.2 (.inr ⟨vector_eq_absent.2 noVector, named⟩)

/-- A piece with nothing before it is read as a piece. -/
lemma read_adjacent {piece : Derivation .piece} (ih : piece.Read limit) :
    (adjacent piece).Read limit := by
  intro _ next proper _ enough
  exact adjacent_eq_done.2 ⟨Adjacent.append proper.1.1 next, ih proper.2 trivial enough⟩

/-- That an argument is whole lets its repetition stop where the derivation does. -/
lemma read_argument {first : Derivation .piece} {rest : Derivation (.many .adjacentPiece)}
    (ihFirst : first.Read limit) (ihRest : rest.Read limit) : (argument first rest).Read limit := by
  intro room next proper _ enough
  obtain ⟨⟨-, whole⟩, properFirst, properRest⟩ := proper
  have enough : (glue first.tree rest.tree).room ≤ room := enough
  rw [glue_room, Nat.max_le] at enough
  have one : 1 ≤ room := first.needs_between.1.trans_le enough.1
  have read : pieceAt limit room (first.tokens ++ (rest.tokens ++ next)) =
      .done first.tree (rest.tokens ++ next) := ihFirst properFirst trivial enough.1
  -- that the argument is whole lets the repetition stop where the derivation does
  have glued : Rule.many (Rule.adjacent (pieceAt limit room)) (rest.tokens ++ next) =
      .done rest.tree next :=
    ihRest properRest whole (needs_pieces _ ▸ Nat.max_le.2 ⟨enough.2, one⟩)
  rw [tokens, List.append_assoc]
  exact argument_eq_done.2 ⟨_, _, _, read, glued, rfl⟩

/-- Without a parenthesis no parameters are read. -/
lemma read_noParameters : noParameters.Read limit := by
  intro _ _ _ closed _
  refine optional_eq_done.2 (.inr ⟨rfl, rfl, ?_⟩)
  exact bind_eq_absent.2 (.inl (token_eq_absent.2 closed))

/-- Parameters are read up to their closing parenthesis. -/
lemma read_parameters {opener : Token} {args : Derivation (.many .argument)} {closer : Token}
    (ih : args.Read limit) : (parameters opener args closer).Read limit := by
  intro room next proper _ enough
  obtain ⟨⟨⟨opens, closes⟩, -⟩, properArgs⟩ := proper
  have listed : Rule.many (argumentAt limit room) (args.tokens ++ closer :: next) =
      .done args.tree (closer :: next) :=
    ih properArgs (stops_many closes) (needs_arguments _ ▸ Nat.max_comm 1 _ ▸ enough)
  simp only [tokens, List.cons_append, List.append_assoc, List.nil_append]
  refine optional_eq_done.2 (.inl ⟨_, rfl, ?_⟩)
  exact parenthesized_eq_done.2 ⟨opener, _, closer, rfl, opens, listed, closes⟩

/-- The body of a block is read up to its closing brace. -/
lemma read_block {opener : Token} {body : Derivation .statements} {closer : Token}
    (ih : body.Read limit) : (block opener body closer).Read limit := by
  intro room next proper _ enough
  obtain ⟨⟨⟨opens, closes⟩, -⟩, properBody⟩ := proper
  obtain _ | room := room
  · cases enough
  have listed : Grammar.statements (statementAt limit room) (body.tokens ++ closer :: next) =
      .done body.tree (closer :: next) :=
    ih properBody (stops_statements (.inl closes)) (Nat.le_of_succ_le_succ enough)
  simp only [tokens, List.cons_append, List.append_assoc, List.nil_append]
  refine or_eq_done.2 (.inl (block_eq_done.2 ?_))
  exact ⟨opener, _, _, closer, rfl, opens, listed, closes, rfl⟩

/-- A control call is no block, and its name, its parameters and its body are read in turn. -/
lemma read_control {sigil : Token} {name : Derivation .argument} {params : Derivation .parameters}
    {body : Derivation .statement} (ihName : name.Read limit) (ihParams : params.Read limit)
    (ihBody : body.Read limit) : (control sigil name params body).Read limit := by
  intro room next proper _ enough
  obtain ⟨⟨⟨kind, near⟩, -⟩, properName, properParams, properBody⟩ := proper
  obtain _ | room := room
  · cases enough
  obtain ⟨enoughCall, enoughBody⟩ := Nat.max_le.1 (Nat.le_of_succ_le_succ enough)
  obtain ⟨enoughName, enoughParams⟩ := Nat.max_le.1 enoughCall
  have one : 1 ≤ room := name.needs_between.1.trans_le enoughName
  have named : argumentAt limit room (name.tokens ++ (params.tokens ++ (body.tokens ++ next))) =
      .done name.tree (params.tokens ++ (body.tokens ++ next)) :=
    ihName properName trivial enoughName
  have listed : Rule.optional (parenthesized (argumentAt limit room))
      (params.tokens ++ (body.tokens ++ next)) = .done params.tree (body.tokens ++ next) :=
    ihParams properParams (stops_parameters properBody) (Nat.max_le.2 ⟨one, enoughParams⟩)
  have controlled : statementAt limit room (body.tokens ++ next) = .done body.tree next :=
    ihBody properBody trivial enoughBody
  simp only [tokens, List.cons_append, List.append_assoc]
  have noBrace : ¬ StartsWith [.openBrace]
      (sigil :: (name.tokens ++ (params.tokens ++ (body.tokens ++ next)))) :=
    (startsWith_cons kind).apart (by decide)
  refine or_eq_done.2 (.inr ⟨bind_eq_absent.2 (.inl (token_eq_absent.2 noBrace)), ?_⟩)
  refine or_eq_done.2 (.inl (control_eq_done.2 ?_))
  exact ⟨sigil, _, _, _, _, _, _, rfl, kind, near.append _, named, listed, controlled, rfl⟩

/-- A command call is neither a block nor a control call, and its arguments end where it does. -/
lemma read_command {name : Derivation .argument} {args : Derivation (.many .argument)}
    (ihName : name.Read limit) (ihArgs : args.Read limit) : (command name args).Read limit := by
  intro room next proper _ enough
  obtain ⟨⟨ends, -⟩, properName, properArgs⟩ := proper
  obtain _ | room := room
  · cases enough
  obtain ⟨enoughName, enoughArgs⟩ := Nat.max_le.1 (Nat.le_of_succ_le_succ enough)
  have one : 1 ≤ room := name.needs_between.1.trans_le enoughName
  have named : argumentAt limit room (name.tokens ++ (args.tokens ++ next)) =
      .done name.tree (args.tokens ++ next) := ihName properName trivial enoughName
  have listed : Rule.many (argumentAt limit room) (args.tokens ++ next) = .done args.tree next :=
    ihArgs properArgs (StartsWith.apart ends (by decide))
      (needs_arguments _ ▸ Nat.max_le.2 ⟨enoughArgs, one⟩)
  have starts : StartsWith pieceKinds (name.tokens ++ (args.tokens ++ next)) :=
    StartsWith.append (name.begins properName) _
  have noBrace : ¬ StartsWith [.openBrace] (name.tokens ++ (args.tokens ++ next)) :=
    starts.apart (by decide)
  have noBang : ¬ StartsWith [.bang] (name.tokens ++ (args.tokens ++ next)) :=
    starts.apart (by decide)
  rw [tokens, List.append_assoc]
  refine or_eq_done.2 (.inr ⟨bind_eq_absent.2 (.inl (token_eq_absent.2 noBrace)), ?_⟩)
  refine or_eq_done.2 (.inr ⟨bind_eq_absent.2 (.inl (token_eq_absent.2 noBang)), ?_⟩)
  exact command_eq_done.2 ⟨_, _, _, named, listed, ends, rfl⟩

/-- Separators are passed over before a statement. -/
lemma read_separated {separators : List Token} {statement : Derivation .statement}
    (ih : statement.Read limit) : (separated separators statement).Read limit := by
  intro room next proper _ enough
  obtain ⟨⟨kinds, -⟩, properStatement⟩ := proper
  have stated : statementAt limit room (statement.tokens ++ next) = .done statement.tree next :=
    ih properStatement trivial enough
  have starts : StartsWith statementKinds (statement.tokens ++ next) :=
    StartsWith.append (statement.begins properStatement) _
  refine separated_eq_done.2 ?_
  rw [tokens, List.append_assoc, dropWhile_separators kinds, dropWhile_of_startsWith starts]
  exact stated

/-- Separators are passed over behind the last statement. -/
lemma read_statements {body : Derivation (.many .separated)} {separators : List Token}
    (ih : body.Read limit) : (statements body separators).Read limit := by
  intro room next proper closed enough
  obtain ⟨⟨kinds, -⟩, properBody⟩ := proper
  have left : (separators ++ next).dropWhile (fun t => t.kind = .separator) = next := by
    rw [dropWhile_separators kinds]
    exact dropWhile_of_not_startsWith fun more => closed (more.mono (by decide))
  have listed : Rule.many (Grammar.separated (statementAt limit room))
      (body.tokens ++ (separators ++ next)) = .done body.tree (separators ++ next) :=
    ih properBody (stops_separated kinds closed) (needs_separated _ ▸ enough)
  rw [tokens, List.append_assoc]
  exact statements_eq_done.2 ⟨_, listed, left⟩

/-- A script is read up to its marker. -/
lemma read_script {body : Derivation .statements} {marker : Token} (ih : body.Read limit) :
    (script body marker).Read limit := by
  intro room next proper _ enough
  obtain ⟨⟨ends, -⟩, properBody⟩ := proper
  have listed : Grammar.statements (statementAt limit room) (body.tokens ++ marker :: next) =
      .done body.tree (marker :: next) :=
    ih properBody (stops_statements (.inr ends)) enough
  simp only [tokens, List.append_assoc, List.cons_append, List.nil_append]
  exact script_eq_done.2 ⟨marker, listed, ends⟩

/-- Where no round begins the repetition stops. -/
lemma read_nil : (nil : Derivation (.many symbol)).Read limit := by
  intro room next _ closed enough
  -- no round begins here, so the repetition stops
  have nonempty := Symbol.not_begins_nil closed
  have slack : symbol.slack < room := enough
  have stop : Repeats (symbol.rule limit room) next [] next :=
    .stop (.inr (Symbol.rule_eq_absent slack closed))
  exact stop.many ((Symbol.rule_reads nonempty).consumes nonempty)
    (Symbol.rule_eq_absent slack nonempty)

/-- A round is read before the others. -/
lemma read_cons {first : Derivation symbol} {rest : Derivation (.many symbol)}
    (ihFirst : first.Read limit) (ihRest : rest.Read limit) : (cons first rest).Read limit := by
  intro room next proper closed enough
  obtain ⟨-, properFirst, properRest⟩ := proper
  have nonempty := Symbol.not_begins_nil closed
  have consumes : Consumes (symbol.rule limit room) :=
    (Symbol.rule_reads nonempty).consumes nonempty
  obtain ⟨enoughFirst, enoughRest⟩ := Nat.max_le.1 enough
  have slack : symbol.slack < room := first.needs_between.1.trans_le enoughFirst
  have read : symbol.rule limit room (first.tokens ++ (rest.tokens ++ next)) =
      .done first.tree (rest.tokens ++ next) :=
    ihFirst properFirst (Symbol.closed_of_not_begins closed _) enoughFirst
  have rounds : Repeats (symbol.rule limit room) (rest.tokens ++ next) rest.tree next :=
    many_repeats consumes (ihRest properRest closed enoughRest)
  rw [tokens, List.append_assoc]
  exact (Repeats.more read rounds).many consumes (Symbol.rule_eq_absent slack nonempty)

/-- Along a derivation, from its parts to the whole, what is derived is read. -/
lemma readable (d : Derivation symbol) : d.Read limit := by
  induction d with
  | literal _ => exact read_literal
  | substitution _ _ ih => exact read_substitution ih
  | reference _ _ ih => exact read_reference ih
  | callTail _ _ _ _ ihName ihArgs => exact read_callTail ihName ihArgs
  | vectorCall _ _ ih => exact read_vectorCall ih
  | vectorReference _ _ ih => exact read_vectorReference ih
  | plain _ ih => exact read_plain ih
  | adjacent _ ih => exact read_adjacent ih
  | argument _ _ ihFirst ihRest => exact read_argument ihFirst ihRest
  | noParameters => exact read_noParameters
  | parameters _ _ _ ih => exact read_parameters ih
  | block _ _ _ ih => exact read_block ih
  | control _ _ _ _ ihName ihParams ihBody => exact read_control ihName ihParams ihBody
  | command _ _ ihName ihArgs => exact read_command ihName ihArgs
  | separated _ _ ih => exact read_separated ih
  | statements _ _ ih => exact read_statements ih
  | script _ _ ih => exact read_script ih
  | nil => exact read_nil
  | cons _ _ ihFirst ihRest => exact read_cons ihFirst ihRest

/-- The rule of a symbol reads what is derived from it. -/
theorem read (d : Derivation symbol) {room : Nat} {next : List Token} (proper : d.Proper next)
    (closed : symbol.Closed next) (enough : symbol.needs d.tree ≤ room) :
    symbol.rule limit room (d.tokens ++ next) = .done d.tree next :=
  d.readable proper closed enough

end Derivation

end Scriptlet.Grammar
