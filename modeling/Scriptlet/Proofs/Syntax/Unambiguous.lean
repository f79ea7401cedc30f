import Scriptlet.Proofs.Syntax.Openings

/-!
# The grammar is unambiguous

No tokens have two proper derivations: the first token, and behind a sigil the second, tells by
which rule a symbol is derived, and where a repetition ends nothing can follow that would go on with
it.
-/

namespace Scriptlet.Grammar

/-- Separators are told from what is not one. -/
lemma separators_split {separators others next next' : List Token}
    (kinds : ∀ t ∈ separators, t.kind = .separator) (kinds' : ∀ t ∈ others, t.kind = .separator)
    (stops : ¬ StartsWith [.separator] next) (stops' : ¬ StartsWith [.separator] next')
    (same : separators ++ next = others ++ next') : separators = others ∧ next = next' := by
  have left : next = next' := by
    have dropped := congrArg (List.dropWhile fun t => t.kind = .separator) same
    rwa [dropWhile_separators kinds, dropWhile_separators kinds', dropWhile_of_not_startsWith stops,
      dropWhile_of_not_startsWith stops'] at dropped
  subst left
  exact ⟨List.append_cancel_right same, rfl⟩

namespace Derivation

variable {symbol : Symbol}

/-- No literal is a dollar sign. -/
lemma literal_ne_dollar {t : Token} (literal : t.isLiteral) : t.kind ≠ .dollar := by
  intro dollar
  obtain kind | kind := isLiteral_iff.1 literal
  · cases kind.symm.trans dollar
  · cases kind.symm.trans dollar

/-- Behind a sigil, a call and a name begin differently. -/
lemma call_ne_name {tail : Derivation .callTail} {name : Derivation .name}
    {next next' properNext properNext' : List Token} (properTail : tail.Proper properNext)
    (properName : name.Proper properNext') : tail.tokens ++ next ≠ name.tokens ++ next' := by
  intro same
  have opens : StartsWith [.openParen] (tail.tokens ++ next) :=
    (tail.begins properTail).2.append next
  rw [same] at opens
  exact opens.apart (by decide) (StartsWith.append (name.begins properName) next')

/-- A piece that is a name does not start with the sigil of a vector. -/
lemma vector_ne_name {sigil : Token} (kind : sigil.kind = .vector) {name : Derivation .name}
    {next next' properNext : List Token} (properName : name.Proper properNext) :
    sigil :: next ≠ name.tokens ++ next' := by
  intro same
  have starts : StartsWith [.vector] (sigil :: next) := startsWith_cons kind
  rw [same] at starts
  exact starts.apart (by decide) (StartsWith.append (name.begins properName) next')

/-- Statements that start with a brace or a bang are no commands. -/
lemma sigil_ne_command {kind : TokenKind} (other : kind ∉ pieceKinds) {sigil : Token}
    (same : sigil.kind = kind) {name : Derivation .argument} {next next' properNext : List Token}
    (properName : name.Proper properNext) : sigil :: next ≠ name.tokens ++ next' := by
  intro e
  have starts : StartsWith pieceKinds (name.tokens ++ next') :=
    StartsWith.append (name.begins properName) next'
  rw [← e] at starts
  exact other (same ▸ starts)

/-- Whatever else is derived to the same tokens is the same derivation, and ends where it does. -/
def Unique (d : Derivation symbol) : Prop :=
  ∀ (d' : Derivation symbol) {next next' : List Token}, d.Proper next → d'.Proper next' →
    symbol.Closed next → symbol.Closed next' → d.tokens ++ next = d'.tokens ++ next' →
    d = d' ∧ next = next'

/-- A literal is no sigil. -/
lemma unique_literal {token : Token} : (literal token).Unique := by
  intro d' next next' proper proper' _ _ same
  cases d' with
  | literal token' =>
    cases same
    exact ⟨rfl, rfl⟩
  | substitution sigil tail =>
    cases same
    exact absurd proper'.1.1 (literal_ne_dollar proper.1)
  | reference sigil name =>
    cases same
    exact absurd proper'.1.1.1 (literal_ne_dollar proper.1)

/-- Behind a dollar sign a call is told from a name by its parenthesis. -/
lemma unique_substitution {sigil : Token} {tail : Derivation .callTail} (ih : tail.Unique) :
    (substitution sigil tail).Unique := by
  intro d' next next' proper proper' _ _ same
  cases d' with
  | literal token' =>
    cases same
    exact absurd proper.1.1 (literal_ne_dollar proper'.1)
  | substitution sigil' tail' =>
    obtain ⟨rfl, behind⟩ := List.cons.inj same
    obtain ⟨rfl, rfl⟩ := ih tail' proper.2 proper'.2 trivial trivial behind
    exact ⟨rfl, rfl⟩
  | reference sigil' name' =>
    exact absurd (List.cons.inj same).2 (call_ne_name proper.2 proper'.2)

/-- Behind a dollar sign a name is told from a call by its first token. -/
lemma unique_reference {sigil : Token} {name : Derivation .name} (ih : name.Unique) :
    (reference sigil name).Unique := by
  intro d' next next' proper proper' _ _ same
  cases d' with
  | literal token' =>
    cases same
    exact absurd proper.1.1.1 (literal_ne_dollar proper'.1)
  | substitution sigil' tail' =>
    exact absurd (List.cons.inj same).2.symm (call_ne_name proper'.2 proper.2)
  | reference sigil' name' =>
    obtain ⟨rfl, behind⟩ := List.cons.inj same
    obtain ⟨rfl, rfl⟩ := ih name' proper.2 proper'.2 trivial trivial behind
    exact ⟨rfl, rfl⟩

/-- The arguments of a call end where its parenthesis does. -/
lemma unique_callTail {opener : Token} {name : Derivation .argument}
    {args : Derivation (.many .argument)} {closer : Token} (ihName : name.Unique)
    (ihArgs : args.Unique) : (callTail opener name args closer).Unique := by
  intro d' next next' proper proper' _ _ same
  cases d' with
  | callTail opener' name' args' closer' =>
    obtain ⟨⟨⟨-, -, closes⟩, -⟩, properName, properArgs⟩ := proper
    obtain ⟨⟨⟨-, -, closes'⟩, -⟩, properName', properArgs'⟩ := proper'
    simp only [tokens, List.cons_append, List.append_assoc, List.nil_append] at same
    obtain ⟨rfl, behind⟩ := List.cons.inj same
    obtain ⟨rfl, after⟩ := ihName name' properName properName' trivial trivial behind
    obtain ⟨rfl, last⟩ := ihArgs args' properArgs properArgs' (stops_many closes)
      (stops_many closes') after
    cases last
    exact ⟨rfl, rfl⟩

/-- Behind the sigil of a vector a call is told from a name by its parenthesis. -/
lemma unique_vectorCall {sigil : Token} {tail : Derivation .callTail} (ih : tail.Unique) :
    (vectorCall sigil tail).Unique := by
  intro d' next next' proper proper' _ _ same
  cases d' with
  | vectorCall sigil' tail' =>
    obtain ⟨rfl, behind⟩ := List.cons.inj same
    obtain ⟨rfl, rfl⟩ := ih tail' proper.2 proper'.2 trivial trivial behind
    exact ⟨rfl, rfl⟩
  | vectorReference sigil' name' =>
    exact absurd (List.cons.inj same).2 (call_ne_name proper.2 proper'.2)
  | plain name' => exact absurd same (vector_ne_name proper.1.1 proper'.2)

/-- Behind the sigil of a vector a name is told from a call by its first token. -/
lemma unique_vectorReference {sigil : Token} {name : Derivation .name} (ih : name.Unique) :
    (vectorReference sigil name).Unique := by
  intro d' next next' proper proper' _ _ same
  cases d' with
  | vectorCall sigil' tail' =>
    exact absurd (List.cons.inj same).2.symm (call_ne_name proper'.2 proper.2)
  | vectorReference sigil' name' =>
    obtain ⟨rfl, behind⟩ := List.cons.inj same
    obtain ⟨rfl, rfl⟩ := ih name' proper.2 proper'.2 trivial trivial behind
    exact ⟨rfl, rfl⟩
  | plain name' => exact absurd same (vector_ne_name proper.1.1.1 proper'.2)

/-- A name as a piece does not start with the sigil of a vector. -/
lemma unique_plain {name : Derivation .name} (ih : name.Unique) : (plain name).Unique := by
  intro d' next next' proper proper' _ _ same
  cases d' with
  | vectorCall sigil' tail' => exact absurd same.symm (vector_ne_name proper'.1.1 proper.2)
  | vectorReference sigil' name' =>
    exact absurd same.symm (vector_ne_name proper'.1.1.1 proper.2)
  | plain name' =>
    obtain ⟨rfl, rfl⟩ := ih name' proper.2 proper'.2 trivial trivial same
    exact ⟨rfl, rfl⟩

/-- A piece with nothing before it is determined as a piece. -/
lemma unique_adjacent {piece : Derivation .piece} (ih : piece.Unique) :
    (adjacent piece).Unique := by
  intro d' next next' proper proper' _ _ same
  cases d' with
  | adjacent piece' =>
    obtain ⟨rfl, rfl⟩ := ih piece' proper.2 proper'.2 trivial trivial same
    exact ⟨rfl, rfl⟩

/-- An argument is as long as it can be, so its pieces end where those of the other do. -/
lemma unique_argument {first : Derivation .piece} {rest : Derivation (.many .adjacentPiece)}
    (ihFirst : first.Unique) (ihRest : rest.Unique) : (argument first rest).Unique := by
  intro d' next next' proper proper' _ _ same
  cases d' with
  | argument first' rest' =>
    obtain ⟨⟨-, whole⟩, properFirst, properRest⟩ := proper
    obtain ⟨⟨-, whole'⟩, properFirst', properRest'⟩ := proper'
    simp only [tokens, List.append_assoc] at same
    obtain ⟨rfl, behind⟩ := ihFirst first' properFirst properFirst' trivial trivial same
    obtain ⟨rfl, rfl⟩ := ihRest rest' properRest properRest' whole whole' behind
    exact ⟨rfl, rfl⟩

/-- Without a parenthesis there are no parameters. -/
lemma unique_noParameters : noParameters.Unique := by
  intro d' next next' proper proper' closed _ same
  cases d' with
  | noParameters => exact ⟨rfl, same⟩
  | parameters opener args closer =>
    cases same
    exact absurd (startsWith_cons proper'.1.1.1) closed

/-- Parameters end where their parenthesis does. -/
lemma unique_parameters {opener : Token} {args : Derivation (.many .argument)} {closer : Token}
    (ih : args.Unique) : (parameters opener args closer).Unique := by
  intro d' next next' proper proper' _ closed' same
  cases d' with
  | noParameters =>
    cases same
    exact absurd (startsWith_cons proper.1.1.1) closed'
  | parameters opener' args' closer' =>
    simp only [tokens, List.cons_append, List.append_assoc, List.nil_append] at same
    obtain ⟨rfl, behind⟩ := List.cons.inj same
    obtain ⟨rfl, last⟩ := ih args' proper.2 proper'.2 (stops_many proper.1.1.2)
      (stops_many proper'.1.1.2) behind
    cases last
    exact ⟨rfl, rfl⟩

/-- A block is told by its brace, and ends where its brace does. -/
lemma unique_block {opener : Token} {body : Derivation .statements} {closer : Token}
    (ih : body.Unique) : (block opener body closer).Unique := by
  intro d' next next' proper proper' _ _ same
  cases d' with
  | block opener' body' closer' =>
    simp only [tokens, List.cons_append, List.append_assoc, List.nil_append] at same
    obtain ⟨rfl, behind⟩ := List.cons.inj same
    obtain ⟨rfl, last⟩ := ih body' proper.2 proper'.2 (stops_statements (.inl proper.1.1.2))
      (stops_statements (.inl proper'.1.1.2)) behind
    cases last
    exact ⟨rfl, rfl⟩
  | control sigil' name' params' body' =>
    cases (List.cons.inj same).1
    cases proper.1.1.1.symm.trans proper'.1.1.1
  | command name' args' =>
    simp only [tokens, List.cons_append, List.append_assoc] at same
    exact absurd same (sigil_ne_command (by decide) proper.1.1.1 proper'.2.1)

/-- A control call is told by its bang, and ends where its body does. -/
lemma unique_control {sigil : Token} {name : Derivation .argument} {params : Derivation .parameters}
    {body : Derivation .statement} (ihName : name.Unique) (ihParams : params.Unique)
    (ihBody : body.Unique) : (control sigil name params body).Unique := by
  intro d' next next' proper proper' _ _ same
  cases d' with
  | block opener' body' closer' =>
    cases (List.cons.inj same).1
    cases proper.1.1.1.symm.trans proper'.1.1.1
  | control sigil' name' params' body' =>
    obtain ⟨-, properName, properParams, properBody⟩ := proper
    obtain ⟨-, properName', properParams', properBody'⟩ := proper'
    simp only [tokens, List.cons_append, List.append_assoc] at same
    obtain ⟨rfl, behind⟩ := List.cons.inj same
    obtain ⟨rfl, after⟩ := ihName name' properName properName' trivial trivial behind
    obtain ⟨rfl, last⟩ := ihParams params' properParams properParams'
      (stops_parameters properBody) (stops_parameters properBody') after
    obtain ⟨rfl, rfl⟩ := ihBody body' properBody properBody' trivial trivial last
    exact ⟨rfl, rfl⟩
  | command name' args' =>
    simp only [tokens, List.cons_append, List.append_assoc] at same
    exact absurd same (sigil_ne_command (by decide) proper.1.1.1 proper'.2.1)

/-- A command call is told by its first piece, and ends where no argument follows. -/
lemma unique_command {name : Derivation .argument} {args : Derivation (.many .argument)}
    (ihName : name.Unique) (ihArgs : args.Unique) : (command name args).Unique := by
  intro d' next next' proper proper' _ _ same
  cases d' with
  | block opener' body' closer' =>
    simp only [tokens, List.cons_append, List.append_assoc] at same
    exact absurd same.symm (sigil_ne_command (by decide) proper'.1.1.1 proper.2.1)
  | control sigil' name' params' body' =>
    simp only [tokens, List.cons_append, List.append_assoc] at same
    exact absurd same.symm (sigil_ne_command (by decide) proper'.1.1.1 proper.2.1)
  | command name' args' =>
    obtain ⟨⟨ends, -⟩, properName, properArgs⟩ := proper
    obtain ⟨⟨ends', -⟩, properName', properArgs'⟩ := proper'
    simp only [tokens, List.append_assoc] at same
    obtain ⟨rfl, behind⟩ := ihName name' properName properName' trivial trivial same
    obtain ⟨rfl, rfl⟩ := ihArgs args' properArgs properArgs' (StartsWith.apart ends (by decide))
      (StartsWith.apart ends' (by decide)) behind
    exact ⟨rfl, rfl⟩

/-- The separators end where the statement starts. -/
lemma unique_separated {separators : List Token} {statement : Derivation .statement}
    (ih : statement.Unique) : (separated separators statement).Unique := by
  intro d' next next' proper proper' _ _ same
  cases d' with
  | separated separators' statement' =>
    obtain ⟨⟨kinds, -⟩, proper⟩ := proper
    obtain ⟨⟨kinds', -⟩, proper'⟩ := proper'
    have starts : StartsWith statementKinds (statement.tokens ++ next) :=
      StartsWith.append (statement.begins proper) next
    have starts' : StartsWith statementKinds (statement'.tokens ++ next') :=
      StartsWith.append (statement'.begins proper') next'
    simp only [tokens, List.append_assoc] at same
    obtain ⟨rfl, behind⟩ := separators_split kinds kinds' (starts.apart (by decide))
      (starts'.apart (by decide)) same
    obtain ⟨rfl, rfl⟩ := ih statement' proper proper' trivial trivial behind
    exact ⟨rfl, rfl⟩

/-- The statements end where only separators are left. -/
lemma unique_statements {body : Derivation (.many .separated)} {separators : List Token}
    (ih : body.Unique) : (statements body separators).Unique := by
  intro d' next next' proper proper' closed closed' same
  cases d' with
  | statements body' separators' =>
    obtain ⟨⟨kinds, -⟩, proper⟩ := proper
    obtain ⟨⟨kinds', -⟩, proper'⟩ := proper'
    simp only [tokens, List.append_assoc] at same
    obtain ⟨rfl, behind⟩ := ih body' proper proper' (stops_separated kinds closed)
      (stops_separated kinds' closed') same
    have stops : ¬ StartsWith [.separator] next := fun more => closed (more.mono (by decide))
    have stops' : ¬ StartsWith [.separator] next' := fun more => closed' (more.mono (by decide))
    obtain ⟨rfl, rfl⟩ := separators_split kinds kinds' stops stops' behind
    exact ⟨rfl, rfl⟩

/-- A script ends with its marker. -/
lemma unique_script {body : Derivation .statements} {marker : Token} (ih : body.Unique) :
    (script body marker).Unique := by
  intro d' next next' proper proper' _ _ same
  cases d' with
  | script body' marker' =>
    simp only [tokens, List.append_assoc, List.cons_append, List.nil_append] at same
    obtain ⟨rfl, last⟩ := ih body' proper.2 proper'.2 (stops_statements (.inr proper.1.1))
      (stops_statements (.inr proper'.1.1)) same
    cases last
    exact ⟨rfl, rfl⟩

/-- A repetition ends where no other round begins. -/
lemma unique_nil : (nil : Derivation (.many symbol)).Unique := by
  intro d' next next' proper proper' closed _ same
  cases d' with
  | nil => exact ⟨rfl, same⟩
  | cons first rest =>
    -- another round would begin where the shorter repetition has ended
    refine absurd ?_ closed
    rw [tokens, List.nil_append, tokens, List.append_assoc] at same
    rw [same]
    exact (first.begins proper'.2.1).append _

/-- As long as a round begins, the repetition goes on. -/
lemma unique_cons {first : Derivation symbol} {rest : Derivation (.many symbol)}
    (ihFirst : first.Unique) (ihRest : rest.Unique) : (cons first rest).Unique := by
  intro d' next next' proper proper' closed closed' same
  cases d' with
  | nil =>
    refine absurd ?_ closed'
    rw [tokens, tokens, List.nil_append, List.append_assoc] at same
    rw [← same]
    exact (first.begins proper.2.1).append _
  | cons first' rest' =>
    obtain ⟨-, properFirst, properRest⟩ := proper
    obtain ⟨-, properFirst', properRest'⟩ := proper'
    simp only [tokens, List.append_assoc] at same
    obtain ⟨rfl, behind⟩ := ihFirst first' properFirst properFirst'
      (Symbol.closed_of_not_begins closed _) (Symbol.closed_of_not_begins closed' _) same
    obtain ⟨rfl, rfl⟩ := ihRest rest' properRest properRest' closed closed' behind
    exact ⟨rfl, rfl⟩

/-- A derivation is determined by its tokens, and so is where it ends. -/
theorem unique {symbol : Symbol} (d : Derivation symbol) :
    ∀ (d' : Derivation symbol) {next next' : List Token}, d.Proper next → d'.Proper next' →
      symbol.Closed next → symbol.Closed next' → d.tokens ++ next = d'.tokens ++ next' →
      d = d' ∧ next = next' := by
  -- along the first derivation: the other is by the same rule, or its first tokens differ
  induction d with
  | literal _ => exact unique_literal
  | substitution _ _ ih => exact unique_substitution ih
  | reference _ _ ih => exact unique_reference ih
  | callTail _ _ _ _ ihName ihArgs => exact unique_callTail ihName ihArgs
  | vectorCall _ _ ih => exact unique_vectorCall ih
  | vectorReference _ _ ih => exact unique_vectorReference ih
  | plain _ ih => exact unique_plain ih
  | adjacent _ ih => exact unique_adjacent ih
  | argument _ _ ihFirst ihRest => exact unique_argument ihFirst ihRest
  | noParameters => exact unique_noParameters
  | parameters _ _ _ ih => exact unique_parameters ih
  | block _ _ _ ih => exact unique_block ih
  | control _ _ _ _ ihName ihParams ihBody => exact unique_control ihName ihParams ihBody
  | command _ _ ihName ihArgs => exact unique_command ihName ihArgs
  | separated _ _ ih => exact unique_separated ih
  | statements _ _ ih => exact unique_statements ih
  | script _ _ ih => exact unique_script ih
  | nil => exact unique_nil
  | cons _ _ ihFirst ihRest => exact unique_cons ihFirst ihRest

end Derivation

end Scriptlet.Grammar
