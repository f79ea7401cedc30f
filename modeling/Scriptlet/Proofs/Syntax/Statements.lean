import Scriptlet.Proofs.Syntax.Impasse

/-!
# Where statements cannot go on

The same for statements and for whole scripts: where a script fails, what is in front of the error
begins a script, and no script goes on with the next token.
-/

namespace Scriptlet.Grammar

open Rule

variable {most : Nat} {tokens before rest next more : List Token} {error : ParseError}
  {argument : Rule (Word Token)} {statement : Rule (Statement Token)}

/-- Where parameters are left out, none could be read. -/
lemma parameters_done (guided : Guided .argument most argument)
    {args : Option (List (Word Token))}
    (done : optional (parenthesized argument) tokens = .done args rest) :
    ∃ params : Derivation .parameters, params.Proper rest ∧ tokens = params.tokens ++ rest ∧
      (params.tokens = [] → ¬ StartsWith [.openParen] rest) := by
  obtain ⟨_, rfl, read⟩ | ⟨rfl, rfl, absent⟩ := optional_eq_done.1 done
  · obtain ⟨opener, _, closer, rfl, opens, listed, closes⟩ := parenthesized_eq_done.1 read
    obtain ⟨args, proper, rfl, -⟩ := guided.many_done id listed
    exact ⟨.parameters opener args closer, ⟨⟨⟨opens, closes⟩, trivial⟩, proper⟩, by simp,
      fun none => absurd none (List.cons_ne_nil _ _)⟩
  · exact ⟨.noParameters, ⟨trivial, trivial⟩, rfl, fun _ => parenthesized_absent absent⟩

/-- Parameters are told from what is behind them, if it is not taken for parameters. -/
lemma parameters_agree {params params' : Derivation .parameters} {next' : List Token}
    (proper : params.Proper next) (proper' : params'.Proper next')
    (closed : params.tokens = [] → ¬ StartsWith [.openParen] next)
    (closed' : params'.tokens = [] → ¬ StartsWith [.openParen] next')
    (same : params.tokens ++ next = params'.tokens ++ next') : params = params' ∧ next = next' := by
  cases params with
  | noParameters =>
    cases params' with
    | noParameters => exact ⟨rfl, same⟩
    | parameters opener args closer =>
      obtain rfl : next = opener :: _ := same
      exact absurd (startsWith_cons proper'.1.1.1) (closed rfl)
  | parameters opener args closer =>
    cases params' with
    | noParameters =>
      obtain rfl : opener :: _ = next' := same
      exact absurd (startsWith_cons proper.1.1.1) (closed' rfl)
    | parameters opener' args' closer' =>
      simp only [Derivation.tokens, List.cons_append, List.append_assoc, List.nil_append] at same
      obtain ⟨rfl, behind⟩ := List.cons.inj same
      obtain ⟨rfl, last⟩ := args.unique args' proper.2 proper'.2
        (Derivation.stops_many proper.1.1.2) (Derivation.stops_many proper'.1.1.2) behind
      cases last
      exact ⟨rfl, rfl⟩

/-- Where parameters cannot go on. -/
lemma parameters_fails (guided : Guided .argument most argument) (short : tokens.length ≤ most)
    (failed : parenthesized argument tokens = .failed error) : Stuck .parameters tokens error := by
  obtain ⟨opener, middle, rfl, opens, failed⟩ := parenthesized_eq_failed failed
  have shorter : middle.length < most := short
  obtain ⟨before, rest, rfl, place, blocked, args, more, split, ended⟩ :=
    guided.arguments_fail (by decide) shorter failed
  obtain ⟨properArgs, -⟩ := ended [filling .closeParen false] (startsWith_cons rfl)
  refine ⟨opener :: before, rest, rfl, place, List.cons_ne_nil _ _, trivial, ?_, ?_⟩
  · rintro (_ | _) next rest' proper closed alike same
    case noParameters =>
      obtain rfl : next = opener :: (before ++ rest') := same
      exact closed (startsWith_cons opens)
    case parameters opener' args' closer' =>
      obtain ⟨⟨⟨-, closes⟩, -⟩, properArgs'⟩ := proper
      refine blocked args' _ rest' properArgs' (startsWith_cons closes) alike ?_
      simpa using (List.cons.inj same).2
  · exact ⟨.parameters opener args (filling .closeParen false),
      more ++ [filling .closeParen false], [], by simp [split], ⟨⟨opens, rfl⟩, trivial⟩, properArgs⟩

/-- Statements that start with a bang are control calls. -/
lemma control_inverts {d : Derivation .statement} {sigil : Token} (kind : sigil.kind = .bang)
    (proper : d.Proper next) (same : d.tokens ++ next = sigil :: more) :
    ∃ (name : Derivation .argument) (params : Derivation .parameters)
      (body : Derivation .statement), Adjacent name.tokens ∧
      name.Proper (params.tokens ++ (body.tokens ++ next)) ∧ params.Proper (body.tokens ++ next) ∧
      body.Proper next ∧ name.tokens ++ (params.tokens ++ (body.tokens ++ next)) = more := by
  cases d with
  | block opener body closer =>
    exact absurd same (starts_ne (startsWith_cons proper.1.1.1) (startsWith_cons kind) (by decide))
  | control sigil' name params body =>
    obtain ⟨⟨⟨-, near⟩, -⟩, properName, properParams, properBody⟩ := proper
    refine ⟨name, params, body, near, properName, properParams, properBody, ?_⟩
    simpa using (List.cons.inj same).2
  | command name args =>
    have starts := StartsWith.append (StartsWith.append (name.begins proper.2.1) args.tokens) next
    exact absurd same (starts_ne starts (startsWith_cons kind) (by decide))

/-- A control call that goes on as one that was read does up to its body has the same name and the
same parameters. -/
lemma control_body {d : Derivation .statement} {sigil : Token} {name : Derivation .argument}
    {params : Derivation .parameters} {rest' : List Token} (kind : sigil.kind = .bang)
    (properName : name.Proper (params.tokens ++ (before ++ rest)))
    (properParams : params.Proper (before ++ rest))
    (closed : params.tokens = [] → ¬ StartsWith [.openParen] (before ++ rest))
    (proper : d.Proper next) (alike : rest'.head? = rest.head?)
    (same : d.tokens ++ next = sigil :: (name.tokens ++ (params.tokens ++ (before ++ rest')))) :
    ∃ body : Derivation .statement, body.Proper next ∧ body.tokens ++ next = before ++ rest' := by
  obtain ⟨name', params', body', -, properName', properParams', properBody', behind⟩ :=
    control_inverts kind proper same
  have here := head_append alike before
  rw [← List.append_assoc] at properName
  obtain ⟨-, behind⟩ := Derivation.agree properName properName' trivial trivial alike
    (by rw [behind, List.append_assoc])
  rw [List.append_assoc] at behind
  obtain ⟨-, behind⟩ := parameters_agree properParams' (properParams.of_head here)
    (fun _ => Derivation.stops_parameters properBody')
    (fun none starts => closed none ((startsWith_of_head here).1 starts)) behind
  exact ⟨body', properBody', behind⟩

section Control

variable {sigil : Token} {name : Derivation .argument} {params : Derivation .parameters}

/-- A statement begins with the sigil of a control call. -/
lemma begins_control (kind : sigil.kind = .bang) (before : List Token) :
    Symbol.statement.Begins (sigil :: before) := by
  have starts : StartsWith [.bang] (sigil :: before) := startsWith_cons kind
  exact starts.mono (by decide)

/-- A control call whose body was made up to complete it. -/
lemma filledControl_proper (kind : sigil.kind = .bang) (near : Adjacent name.tokens)
    (properName : name.Proper (params.tokens ++ filledCommand.tokens ++ [filling .endMarker false]))
    (properParams : params.Proper (filledCommand.tokens ++ [filling .endMarker false])) :
    (Derivation.control sigil name params filledCommand).Proper [filling .endMarker false] := by
  rw [List.append_assoc] at properName
  exact ⟨⟨⟨kind, near⟩, trivial⟩, properName, properParams, filledCommand_proper ends_filling⟩

/-- What was made up is spaced, and no argument goes on with it. -/
lemma apart_filledCommand (next : List Token) : Apart (filledCommand.tokens ++ next) :=
  fun added => Bool.noConfusion added.1

/-- Where a control call cannot go on in its name, or behind a bang to which no name is adjacent. -/
lemma control_name_fails (argued : Guided .argument most argument) (kind : sigil.kind = .bang)
    (short : tokens.length < most)
    (failed : Adjacent tokens ∧ argument tokens = .failed error ∨
      Rule.adjacent argument tokens = .absent ∧ error.location = here tokens) :
    Stuck .statement (sigil :: tokens) error := by
  have completed (name : Derivation .argument) (near : Adjacent name.tokens)
      (proper : name.Proper (filledCommand.tokens ++ [filling .endMarker false])) :
      (Derivation.control sigil name .noParameters filledCommand).Proper
        [filling .endMarker false] :=
    filledControl_proper kind near proper ⟨trivial, trivial⟩
  obtain ⟨near, unnamed⟩ | ⟨absent, place⟩ := failed
  · obtain ⟨before, rest, rfl, place, impasse⟩ := argued.fails short unnamed
    refine ⟨sigil :: before, rest, rfl, place, List.cons_ne_nil _ _, begins_control kind _, ?_, ?_⟩
    · intro d next rest' proper _ alike same
      obtain ⟨name, params, body, -, properName, -, -, behind⟩ := control_inverts kind proper same
      exact impasse.blocked name _ rest' properName trivial alike behind
    · obtain ⟨name, more, next, split, proper⟩ := impasse.completable
      have near : Adjacent name.tokens :=
        split ▸ (adjacent_of_append impasse.taken near).append more
      exact ⟨_, more ++ filledCommand.tokens, [filling .endMarker false], by simp [split],
        completed name near (proper.word id (apart_filledCommand _))⟩
  · refine ⟨[sigil], tokens, rfl, place, List.cons_ne_nil _ _, begins_control kind _, ?_, ?_⟩
    · intro d next rest' proper _ alike same
      obtain ⟨name, params, body, near, properName, -, -, behind⟩ :=
        control_inverts kind proper same
      obtain rfl : name.tokens ++ _ = rest' := behind
      have starts :=
        StartsWith.append (name.begins properName) (params.tokens ++ (body.tokens ++ next))
      have near := (adjacent_of_head alike).1 (near.append _)
      exact argued.absent (absent_of_adjacent near absent) ((startsWith_of_head alike).1 starts)
    · exact ⟨_, (filler false).tokens ++ filledCommand.tokens, [filling .endMarker false], rfl,
        completed (filler false) rfl (filler_proper (apart_filledCommand _))⟩

/-- Where a control call cannot go on in its parameters. -/
lemma control_parameters_fail (argued : Guided .argument most argument)
    (kind : sigil.kind = .bang) (near : Adjacent name.tokens) (properName : name.Proper tokens)
    (short : tokens.length ≤ most) (failed : parenthesized argument tokens = .failed error) :
    Stuck .statement (sigil :: (name.tokens ++ tokens)) error := by
  obtain ⟨before, rest, rfl, place, impasse⟩ := parameters_fails argued short failed
  refine ⟨sigil :: (name.tokens ++ before), rest, by simp, place, List.cons_ne_nil _ _,
    begins_control kind _, ?_, ?_⟩
  · intro d next rest' proper _ alike same
    rw [List.cons_append, List.append_assoc] at same
    obtain ⟨name', params', body', -, properName', properParams', properBody', behind⟩ :=
      control_inverts kind proper same
    obtain ⟨-, behind⟩ := Derivation.agree properName properName' trivial trivial alike behind
    exact impasse.blocked params' _ rest' properParams' (Derivation.stops_parameters properBody')
      alike behind
  · obtain ⟨params, more, next, split, proper⟩ := impasse.completable
    refine ⟨.control sigil name params filledCommand, more ++ filledCommand.tokens,
      [filling .endMarker false], by simp [split],
      filledControl_proper kind near ?_ (proper.word id (apart_filledCommand _))⟩
    rw [split, List.append_assoc, List.append_assoc]
    exact properName.of_head (head_of_taken impasse.taken rest _)

/-- Where a control call cannot go on in its body, or where its body should be. -/
lemma control_body_fails (stated : Guided .statement most statement) (kind : sigil.kind = .bang)
    (near : Adjacent name.tokens) (properName : name.Proper (params.tokens ++ tokens))
    (properParams : params.Proper tokens)
    (closed : params.tokens = [] → ¬ StartsWith [.openParen] tokens)
    (short : tokens.length < most)
    (failed : statement tokens = .failed error ∨
      statement tokens = .absent ∧ error.location = here tokens) :
    Stuck .statement (sigil :: (name.tokens ++ (params.tokens ++ tokens))) error := by
  obtain failed | ⟨absent, place⟩ := failed
  · obtain ⟨before, rest, rfl, place, impasse⟩ := stated.fails short failed
    refine ⟨sigil :: (name.tokens ++ (params.tokens ++ before)), rest, by simp, place,
      List.cons_ne_nil _ _, begins_control kind _, ?_, ?_⟩
    · intro d next rest' proper _ alike same
      simp only [List.cons_append, List.append_assoc] at same
      obtain ⟨body, properBody, behind⟩ :=
        control_body kind properName properParams closed proper alike same
      exact impasse.blocked body next rest' properBody trivial alike behind
    · obtain ⟨body, more, next, split, proper⟩ := impasse.completable
      have head : (body.tokens ++ next).head? = (before ++ rest).head? := by
        rw [split, List.append_assoc]
        exact head_of_taken impasse.taken rest _
      exact ⟨.control sigil name params body, more, next, by simp [split],
        ⟨⟨kind, near⟩, trivial⟩, properName.of_head (head_append head _),
        properParams.of_head head, proper⟩
  · refine ⟨sigil :: (name.tokens ++ params.tokens), tokens, by simp, place,
      List.cons_ne_nil _ _, begins_control kind _, ?_, ?_⟩
    · intro d next rest' proper _ alike same
      simp only [List.cons_append, List.append_assoc] at same
      obtain ⟨body, properBody, rfl⟩ : ∃ body : Derivation .statement, body.Proper next ∧
          body.tokens ++ next = [] ++ rest' :=
        control_body kind properName properParams closed proper alike same
      have starts := StartsWith.append (body.begins properBody) next
      exact stated.absent absent ((startsWith_of_head alike).1 starts)
    · -- what was made up for a body cannot be taken for parameters, nor added to the name
      refine ⟨.control sigil name params filledCommand, filledCommand.tokens,
        [filling .endMarker false], by simp,
        filledControl_proper kind near ?_ (properParams.word id (apart_filledCommand _))⟩
      rw [List.append_assoc]
      exact properName.behind (Apart.append fun _ => apart_filledCommand _) nofun

/-- Where a control call cannot go on. -/
lemma control_fails (argued : Guided .argument (most + 1) argument)
    (stated : Guided .statement most statement) (short : tokens.length ≤ most)
    (failed : control argument statement tokens = .failed error) :
    Stuck .statement tokens error := by
  obtain ⟨sigil, middle, rfl, kind, cases⟩ := control_eq_failed failed
  rw [List.length_cons] at short
  obtain unnamed | absent | ⟨_, _, near, named, cases⟩ := cases
  · exact control_name_fails argued kind (by omega) (.inl unnamed)
  · exact control_name_fails argued kind (by omega) (.inr absent)
  · obtain ⟨name, properName, rfl, -⟩ := argued.reads named
    have begun := adjacent_of_append (name.taken properName id) near
    rw [List.length_append] at short
    obtain unlisted | ⟨_, _, listed, unbodied⟩ := cases
    · exact control_parameters_fail argued kind begun properName (by omega) unlisted
    · obtain ⟨params, properParams, rfl, closed⟩ := parameters_done argued listed
      rw [List.length_append] at short
      exact control_body_fails stated kind begun properName properParams closed (by omega) unbodied

end Control

/-- What is derived from a statement and starts with a brace is a block. -/
lemma block_inverts {d : Derivation .statement} {opener : Token} (kind : opener.kind = .openBrace)
    (proper : d.Proper next) (same : d.tokens ++ next = opener :: more) :
    ∃ (body : Derivation .statements) (closer : Token), closer.kind = .closeBrace ∧
      body.Proper (closer :: next) ∧ body.tokens ++ closer :: next = more := by
  cases d with
  | block opener' body closer =>
    refine ⟨body, closer, proper.1.1.2, proper.2, ?_⟩
    simpa using (List.cons.inj same).2
  | control sigil name params body =>
    exact absurd same (starts_ne (startsWith_cons proper.1.1.1) (startsWith_cons kind) (by decide))
  | command name args =>
    have starts := StartsWith.append (StartsWith.append (name.begins proper.2.1) args.tokens) next
    exact absurd same (starts_ne starts (startsWith_cons kind) (by decide))

/-- What starts with a piece is a command. -/
lemma command_inverts {d : Derivation .statement} (starts : StartsWith pieceKinds (d.tokens ++ next))
    (proper : d.Proper next) :
    ∃ (name : Derivation .argument) (args : Derivation (.many .argument)), EndsCommand next ∧
      name.Proper (args.tokens ++ next) ∧ args.Proper next ∧
      d.tokens ++ next = name.tokens ++ (args.tokens ++ next) := by
  cases d with
  | block opener body closer =>
    exact absurd rfl (starts_ne (startsWith_cons proper.1.1.1) starts (by decide))
  | control sigil name params body =>
    exact absurd rfl (starts_ne (startsWith_cons proper.1.1.1) starts (by decide))
  | command name args => exact ⟨name, args, proper.1.1, proper.2.1, proper.2.2, by simp⟩

/-- A command that goes on as one that was read does up to its arguments has the same name. -/
lemma command_args {d : Derivation .statement} {name : Derivation .argument} {rest' : List Token}
    (properName : name.Proper (before ++ rest)) (proper : d.Proper next)
    (alike : rest'.head? = rest.head?)
    (same : d.tokens ++ next = name.tokens ++ (before ++ rest')) :
    ∃ args : Derivation (.many .argument), EndsCommand next ∧ args.Proper next ∧
      args.tokens ++ next = before ++ rest' := by
  obtain ⟨name', args, ends, properName', properArgs, split⟩ :=
    command_inverts (same ▸ StartsWith.append (name.begins properName) _) proper
  obtain ⟨-, behind⟩ :=
    Derivation.agree properName properName' trivial trivial alike (split ▸ same)
  exact ⟨args, ends, properArgs, behind⟩

/-- Where a command cannot go on: in an argument, or behind the last one in front of what does not end
a command. -/
lemma command_fails (argued : Guided .argument most argument) (short : tokens.length < most)
    (failed : command argument tokens = .failed error) : Stuck .statement tokens error := by
  have ending : EndsCommand [filling .endMarker false] := ends_filling
  obtain failed | ⟨_, _, named, unended⟩ := command_eq_failed failed
  · obtain ⟨before, rest, rfl, place, impasse⟩ := argued.fails short failed
    refine ⟨before, rest, rfl, place, impasse.taken, impasse.begins.mono pieceKinds_subset, ?_, ?_⟩
    · intro d next rest' proper _ alike same
      obtain ⟨name, args, -, properName, -, split⟩ :=
        command_inverts (same ▸ StartsWith.append impasse.begins rest') proper
      exact impasse.blocked name _ rest' properName trivial alike (split ▸ same)
    · obtain ⟨name, more, next, split, proper⟩ := impasse.completable
      exact ⟨.command name .nil, more, [filling .endMarker false], by simp [split],
        ⟨ending, trivial⟩, proper.word id ending.apart, trivial, trivial⟩
  · obtain ⟨name, properName, rfl, -⟩ := argued.reads named
    rw [List.length_append] at short
    obtain ⟨before, rest, rfl, place, blocked, args, more, split, ended⟩ :=
      argued.arguments_fail (by decide) (by omega) unended
    have starts : StartsWith pieceKinds name.tokens := name.begins properName
    refine ⟨name.tokens ++ before, rest, by simp, place, by simp [name.taken properName id],
      (starts.mono pieceKinds_subset).append before, ?_, ?_⟩
    · intro d next rest' proper _ alike same
      rw [List.append_assoc] at same
      obtain ⟨args, ends, properArgs, behind⟩ := command_args properName proper alike same
      exact blocked args next rest' properArgs ends alike behind
    · obtain ⟨properArgs, apart⟩ := ended [filling .endMarker false] ending
      exact ⟨.command name args, more, [filling .endMarker false], by simp [split],
        ⟨ending, trivial⟩, properName.behind apart nofun, properArgs⟩

/-- Statements behind separators are guided if statements are. -/
lemma separated_guided (stated : Guided .statement most statement) :
    Guided .separated most (separated statement) where
  reads := separated_reads stated.reads
  absent := by
    intro tokens absent
    obtain absent | ⟨_, _, dropped, absent⟩ := bind_eq_absent.1 absent
    · cases absent
    · cases dropped
      exact stated.absent absent
  fails := by
    intro tokens error short failed
    rw [separated_eq_failed] at failed
    obtain ⟨separators, kinds, split⟩ := separators_taken tokens
    have shorter : (tokens.dropWhile fun t => t.kind = .separator).length ≤ tokens.length :=
      (List.dropWhile_sublist _).length_le
    obtain ⟨before, rest, same, place, impasse⟩ := stated.fails (shorter.trans_lt short) failed
    have starts : StartsWith statementKinds before := impasse.begins
    rw [same] at split
    refine ⟨separators ++ before, rest, by rw [split, List.append_assoc], place,
      by simp [impasse.taken], ?_, ?_, ?_⟩
    · show StartsWith statementKinds ((separators ++ before).dropWhile _)
      rwa [dropWhile_separators kinds, dropWhile_of_startsWith starts]
    · rintro (_ | _) next rest' proper - alike whole
      rename_i separators' statement
      obtain ⟨⟨kinds', -⟩, proper⟩ := proper
      rw [Derivation.tokens, List.append_assoc, List.append_assoc] at whole
      have starts' := StartsWith.append (statement.begins proper) next
      obtain ⟨-, behind⟩ := separators_split kinds' kinds (starts'.apart (by decide))
        ((starts.append rest').apart (by decide)) whole
      exact impasse.blocked statement next rest' proper trivial alike behind
    · obtain ⟨statement, more, next, split, proper⟩ := impasse.completable
      exact ⟨.separated separators statement, more, next, by simp [split], ⟨kinds, trivial⟩, proper⟩

/-- Statements end where neither a separator nor a statement follows. -/
lemma statements_done (stated : Guided .statement most statement)
    {body : List (Statement Token)} (done : statements statement tokens = .done body rest) :
    ∃ d : Derivation .statements, d.Proper rest ∧ tokens = d.tokens ++ rest ∧
      Symbol.statements.Closed rest := by
  obtain ⟨middle, listed, rfl⟩ := statements_eq_done.1 done
  obtain ⟨taken, kinds, split⟩ := separators_taken middle
  obtain ⟨body, proper, rfl, ended⟩ := (separated_guided stated).many_done id listed
  refine ⟨.statements body taken, ⟨⟨kinds, trivial⟩, split ▸ proper⟩, ?_, ?_⟩
  · rw [Derivation.tokens, List.append_assoc, ← split]
  · show ¬ StartsWith ([.separator] ++ statementKinds) _
    rw [startsWith_append_iff, not_or]
    exact ⟨not_startsWith_dropWhile, ended⟩

/-- Where statements cannot go on: in one of them, or behind them in front of what does not close
them. -/
lemma statements_fail {kind : TokenKind} (closing : kind ∈ [.closeBrace, .endMarker])
    (stated : Guided .statement most statement) (short : tokens.length < most)
    (failed : statements statement tokens = .failed error ∨
      ∃ body rest, statements statement tokens = .done body rest ∧ ¬ StartsWith [kind] rest ∧
        error.location = here rest) :
    ∃ before rest, tokens = before ++ rest ∧ error.location = here rest ∧
      (∀ (body : Derivation .statements) (closer : Token) (next rest' : List Token),
        body.Proper (closer :: next) → closer.kind = kind → rest'.head? = rest.head? →
        body.tokens ++ closer :: next ≠ before ++ rest') ∧
      ∃ (body : Derivation .statements) (more : List Token), body.tokens = before ++ more ∧
        body.Proper [filling kind false] := by
  have ending : EndsCommand [filling kind false] := List.mem_cons_of_mem _ closing
  have closed {closer : Token} (same : closer.kind = kind) (next : List Token) :
      Symbol.statements.Closed (closer :: next) :=
    Derivation.stops_statements (by simpa [same] using closing)
  -- it fails in a statement, or behind the statements in front of what does not close them
  obtain failed | ⟨_, rest, listed, unclosed, place⟩ := failed
  · obtain ⟨before, rest, rfl, place, impasse⟩ :=
      (separated_guided stated).many_fails id short (statements_eq_failed failed)
    refine ⟨before, rest, rfl, place, ?_, ?_⟩
    · rintro (_ | _) closer next rest' proper closes alike same
      rename_i body separators
      obtain ⟨⟨kinds, -⟩, properBody⟩ := proper
      rw [Derivation.tokens, List.append_assoc] at same
      exact impasse.blocked body _ rest' properBody
        (Derivation.stops_separated kinds (closed closes next)) alike same
    · obtain ⟨body, more, next, split, proper⟩ := impasse.completable
      exact ⟨.statements body [], more, by simp [split], ⟨nofun, trivial⟩,
        proper.behind (fun _ => ending.apart) fun _ _ => ending⟩
  · obtain ⟨body, proper, rfl, ended⟩ := statements_done stated listed
    refine ⟨body.tokens, rest, rfl, place, ?_, ?_⟩
    · intro body' closer next rest' proper' closes alike same
      have last : Symbol.statements.Closed rest' := fun starts =>
        ended ((startsWith_of_head alike).1 starts)
      obtain ⟨-, rfl⟩ := body'.unique body proper' (proper.of_head alike) (closed closes next) last
        same
      exact unclosed ((startsWith_of_head alike).1 (startsWith_cons closes))
    · exact ⟨body, [], by simp, proper.behind (fun _ => ending.apart) fun _ _ => ending⟩

/-- A block fails at an impasse if statements do. -/
lemma block_fails (stated : Guided .statement most statement) (short : tokens.length ≤ most)
    (failed : block statement tokens = .failed error) : Stuck .statement tokens error := by
  obtain ⟨opener, middle, rfl, opens, failed⟩ := block_eq_failed failed
  have shorter : middle.length < most := short
  have starts (before : List Token) : StartsWith [.openBrace] (opener :: before) :=
    startsWith_cons opens
  obtain ⟨before, rest, rfl, place, blocked, body, more, split, proper⟩ :=
    statements_fail (by decide) stated shorter failed
  refine ⟨opener :: before, rest, rfl, place, List.cons_ne_nil _ _, (starts before).mono (by decide),
    ?_, ?_⟩
  · intro d next rest' proper _ alike same
    obtain ⟨body, closer, closes, properBody, behind⟩ := block_inverts opens proper same
    exact blocked body closer next rest' properBody closes alike behind
  · exact ⟨.block opener body (filling .closeBrace false), more ++ [filling .closeBrace false], [],
      by simp [split], ⟨⟨opens, rfl⟩, trivial⟩, proper⟩

variable {limit : Nat}

/-- Without room, a statement fails, so it is absent only where none begins. -/
lemma statementAt_absent {room : Nat} (absent : statementAt limit room tokens = .absent) :
    ¬ StartsWith statementKinds tokens := by
  cases room with
  | zero => cases absent
  | succ room =>
    obtain ⟨noBlock, absent⟩ := or_eq_absent.1 absent
    obtain ⟨noControl, noCommand⟩ := or_eq_absent.1 absent
    show ¬ StartsWith ([.openBrace] ++ ([.bang] ++ pieceKinds)) tokens
    rw [startsWith_append_iff, startsWith_append_iff, not_or, not_or]
    exact ⟨block_absent noBlock, control_absent noControl,
      (argumentAt_guided room).absent (command_absent noCommand)⟩

/-- Statements are read as they should, if there are more levels than tokens. -/
lemma statementAt_guided (room : Nat) : Guided .statement room (statementAt limit (room + 1)) := by
  induction room with
  | zero => exact ⟨statementAt_reads _, fun _ => statementAt_absent, nofun⟩
  | succ room ih =>
    have argued : Guided .argument (room + 1) (argumentAt limit (room + 1)) := argumentAt_guided _
    refine ⟨statementAt_reads _, fun _ => statementAt_absent, ?_⟩
    intro tokens error short failed
    obtain failed | ⟨-, failed⟩ := or_eq_failed.1 failed
    · exact block_fails ih (Nat.le_of_lt_succ short) failed
    · obtain failed | ⟨-, failed⟩ := or_eq_failed.1 failed
      · exact control_fails argued ih (Nat.le_of_lt_succ short) failed
      · exact command_fails argued short failed

/-- Where a script cannot go on, if there are more levels than tokens. -/
lemma script_fails {room : Nat} (short : tokens.length + 1 < room)
    (failed : script limit room tokens = .failed error) :
    ∃ before rest, tokens = before ++ rest ∧ error.location = here rest ∧
      Blocked .script before rest ∧
      ∃ (d : Derivation .script) (more : List Token), d.tokens = before ++ more ∧ d.Proper [] := by
  obtain ⟨most, rfl⟩ : ∃ most, room = most + 1 := ⟨room - 1, by omega⟩
  obtain ⟨before, rest, rfl, place, blocked, body, more, split, proper⟩ :=
    statements_fail (by decide) (statementAt_guided most) (by omega) (script_eq_failed failed)
  refine ⟨before, rest, rfl, place, ?_, ?_⟩
  · rintro (_ | _) next rest' proper - alike same
    rename_i body marker
    refine blocked body marker next rest' proper.2 proper.1.1 alike ?_
    simpa using same
  · exact ⟨.script body (filling .endMarker false), more ++ [filling .endMarker false],
      by simp [split], ⟨rfl, trivial⟩, proper⟩

end Scriptlet.Grammar
