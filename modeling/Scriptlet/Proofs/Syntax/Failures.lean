import Scriptlet.Proofs.Syntax.Openings

/-!
# When rules fail

For each way of putting rules together and for each rule of the grammar, on which tokens it fails and
where the error is reported: a rule fails where one of its parts does, or in front of a token that is
not what it has committed itself to. Behind a commitment, no rule is absent.
-/

namespace Scriptlet

namespace Rule

variable {α β : Type} {rule other : Rule α} {tokens rest : List Token} {value : α}
  {error : ParseError}

/-- A rule whose parts are never absent is never absent. -/
lemma bind_ne_absent {next : α → Rule β} (first : rule tokens ≠ .absent)
    (second : ∀ value rest, next value rest ≠ .absent) : (rule >>= next) tokens ≠ .absent := by
  intro absent
  obtain absent | ⟨value, rest, -, absent⟩ := bind_eq_absent.1 absent
  · exact first absent
  · exact second value rest absent

/-- Two rules in turn fail if the first does or, where it is done, the second. -/
lemma bind_eq_failed {next : α → Rule β} :
    (rule >>= next) tokens = .failed error ↔
      rule tokens = .failed error ∨
        ∃ first middle, rule tokens = .done first middle ∧ next first middle = .failed error := by
  show andThen rule next tokens = _ ↔ _
  rw [andThen]
  cases rule tokens with
  | done first middle =>
    constructor
    · exact fun h => .inr ⟨first, middle, rfl, h⟩
    · rintro (e | ⟨_, _, e, h⟩)
      · cases e
      · cases e
        exact h
  | absent => simp
  | failed error => simp

/-- A value is not absent. -/
lemma pure_ne_absent : (pure value : Rule α) tokens ≠ .absent :=
  nofun

/-- A value does not fail. -/
lemma pure_ne_failed : (pure value : Rule α) tokens ≠ .failed error :=
  nofun

/-- A choice fails if its first side does or, where that is absent, the second. -/
lemma or_eq_failed :
    (rule.or other) tokens = .failed error ↔
      rule tokens = .failed error ∨ rule tokens = .absent ∧ other tokens = .failed error := by
  rw [or]
  cases rule tokens with
  | done first middle => simp
  | absent => simp
  | failed error => simp

/-- A token is there or absent. -/
lemma token_ne_failed {kind : TokenKind} : token kind tokens ≠ .failed error := by
  cases tokens with
  | nil => simp [token]
  | cons t tokens =>
    rw [token]
    split <;> simp

/-- A rule for what is adjacent fails only there. -/
lemma adjacent_eq_failed :
    adjacent rule tokens = .failed error ↔ Adjacent tokens ∧ rule tokens = .failed error := by
  cases tokens with
  | nil => simp [adjacent, Adjacent]
  | cons first tokens => cases h : first.spaced <;> simp [adjacent, Adjacent, h]

/-- A commitment fails where its rule is absent. -/
lemma commit_eq_failed {what : Expectation} (h : commit what rule tokens = .failed error) :
    rule tokens = .failed error ∨ rule tokens = .absent ∧ error.location = here tokens := by
  rw [commit] at h
  cases step : rule tokens with
  | done first middle => simp [step] at h
  | absent =>
    rw [step] at h
    cases h
    exact .inr ⟨rfl, rfl⟩
  | failed error =>
    rw [step] at h
    cases h
    exact .inl rfl

/-- To answer something fails nowhere. -/
lemma answer_eq_failed {answer : α → β}
    (h : (rule >>= fun value => pure (answer value)) tokens = .failed error) :
    rule tokens = .failed error := by
  obtain failed | ⟨_, _, -, failed⟩ := bind_eq_failed.1 h
  · exact failed
  · exact absurd failed pure_ne_failed

/-- A rule that begins with a token fails only behind it. -/
lemma token_bind_eq_failed {kind : TokenKind} {next : Token → Rule β}
    (h : (token kind >>= next) tokens = .failed error) :
    ∃ opener middle, tokens = opener :: middle ∧ opener.kind = kind ∧
      next opener middle = .failed error := by
  obtain failed | ⟨opener, middle, opened, more⟩ := bind_eq_failed.1 h
  · exact absurd failed token_ne_failed
  · obtain ⟨rfl, opens⟩ := token_eq_done.1 opened
    exact ⟨opener, middle, rfl, opens, more⟩

/-- A rule that a token has to close fails where it does by itself, or in front of another token. -/
lemma closed_eq_failed {what : Expectation} {kind : TokenKind} {answer : α → β}
    (h : (do
      let value ← rule
      let _ ← commit what (token kind)
      pure (answer value) : Rule β) tokens = .failed error) :
    rule tokens = .failed error ∨
      ∃ value rest, rule tokens = .done value rest ∧ ¬ StartsWith [kind] rest ∧
        error.location = here rest := by
  obtain failed | ⟨value, rest, read, more⟩ := bind_eq_failed.1 h
  · exact .inl failed
  · obtain failed | ⟨absent, place⟩ := commit_eq_failed (answer_eq_failed more)
    · exact absurd failed token_ne_failed
    · exact .inr ⟨value, rest, read, token_eq_absent.1 absent, place⟩

/-- An optional rule fails where the rule does. -/
lemma optional_eq_failed : optional rule tokens = .failed error ↔ rule tokens = .failed error := by
  rw [optional]
  cases rule tokens with
  | done first middle => simp
  | absent => simp
  | failed error => simp

/-- The rule is done a number of times, and then it fails. -/
inductive Breaks (rule : Rule α) (error : ParseError) : List Token → Prop
  | now {tokens : List Token} :
    rule tokens = .failed error →
    Breaks rule error tokens
  | later {tokens middle : List Token} {value : α} :
    rule tokens = .done value middle →
    Breaks rule error middle →
    Breaks rule error tokens

/-- A repetition that fails is done a number of times first. -/
lemma manyFor_eq_failed {clock : List Token} (h : manyFor rule clock tokens = .failed error) :
    Breaks rule error tokens := by
  induction clock generalizing tokens with
  | nil => cases h
  | cons tick clock ih =>
    rw [manyFor] at h
    split at h
    · cases h
    · rename_i failed
      cases h
      exact .now failed
    · rename_i present
      split at h
      · cases h
      · cases h
      · rename_i failed
        cases h
        exact .later present (ih failed)

/-- The same with its own tokens as the clock. -/
lemma many_eq_failed (h : many rule tokens = .failed error) : Breaks rule error tokens :=
  manyFor_eq_failed h

/-- A repetition is never absent. -/
lemma manyFor_ne_absent {clock : List Token} : manyFor rule clock tokens ≠ .absent := by
  induction clock generalizing tokens with
  | nil => simp [manyFor]
  | cons tick clock ih =>
    rw [manyFor]
    split
    · simp
    · simp
    · split
      · simp
      · rename_i absent
        exact absurd absent ih
      · simp

/-- A repetition is not absent. -/
lemma many_ne_absent : many rule tokens ≠ .absent :=
  manyFor_ne_absent

/-- An optional rule is not absent. -/
lemma optional_ne_absent : optional rule tokens ≠ .absent := by
  rw [optional]
  cases rule tokens with
  | done first middle => simp
  | absent => simp
  | failed error => simp

end Rule

namespace Grammar

open Rule

variable {tokens : List Token} {name argument piece : Rule (Word Token)}
  {statement : Rule (Statement Token)} {error : ParseError}

/-- A literal is there or absent. -/
lemma literal_ne_failed : literal tokens ≠ .failed error := by
  cases tokens with
  | nil => simp [literal]
  | cons t tokens =>
    rw [literal]
    split <;> simp

/-- The tail of a call fails behind its parenthesis, in an argument or where no argument and no
closing parenthesis is. -/
lemma callTail_eq_failed (h : callTail argument tokens = .failed error) :
    ∃ opener middle, tokens = opener :: middle ∧ opener.kind = .openParen ∧
      opener.spaced = false ∧
      (argument middle = .failed error ∨
        argument middle = .absent ∧ error.location = here middle ∨
        ∃ name last, argument middle = .done name last ∧
          (many argument last = .failed error ∨
            ∃ args rest, many argument last = .done args rest ∧ ¬ StartsWith [.closeParen] rest ∧
              error.location = here rest)) := by
  rw [callTail] at h
  obtain failed | ⟨opener, middle, opened, more⟩ := bind_eq_failed.1 h
  · exact absurd (adjacent_eq_failed.1 failed).2 token_ne_failed
  · obtain ⟨near, opened⟩ := adjacent_eq_done.1 opened
    obtain ⟨rfl, opens⟩ := token_eq_done.1 opened
    refine ⟨opener, middle, rfl, opens, near, ?_⟩
    obtain failed | ⟨name, last, named, more⟩ := bind_eq_failed.1 more
    · exact (commit_eq_failed failed).imp_right .inl
    · exact .inr (.inr ⟨name, last, commit_eq_done.1 named, closed_eq_failed more⟩)

/-- A substitution fails in the tail of its call. -/
lemma substitution_eq_failed (h : substitution argument tokens = .failed error) :
    ∃ sigil middle, tokens = sigil :: middle ∧ sigil.kind = .dollar ∧
      callTail argument middle = .failed error := by
  rw [substitution] at h
  obtain ⟨sigil, middle, rfl, kind, more⟩ := token_bind_eq_failed h
  exact ⟨sigil, middle, rfl, kind, answer_eq_failed more⟩

/-- Behind a sigil, a name fails where it does elsewhere, or in front of what is no adjacent name. -/
lemma target_eq_failed {what : Expectation} {form : Word Token → Word Token}
    (h : (do
      let name ← commit what (Rule.adjacent name)
      pure (form name) : Rule (Word Token)) tokens = .failed error) :
    Adjacent tokens ∧ name tokens = .failed error ∨
      Rule.adjacent name tokens = .absent ∧ error.location = here tokens :=
  (commit_eq_failed (answer_eq_failed h)).imp_left adjacent_eq_failed.1

/-- A reference fails in its name, or where no name is. -/
lemma reference_eq_failed (h : reference name tokens = .failed error) :
    ∃ sigil middle, tokens = sigil :: middle ∧ sigil.kind = .dollar ∧
      (Adjacent middle ∧ name middle = .failed error ∨
        Rule.adjacent name middle = .absent ∧ error.location = here middle) := by
  rw [reference] at h
  obtain ⟨sigil, middle, rfl, kind, more⟩ := token_bind_eq_failed h
  exact ⟨sigil, middle, rfl, kind, target_eq_failed more⟩

/-- A vector expansion fails in the tail of a call, in its name, or where neither is. -/
lemma vector_eq_failed (h : vector name argument tokens = .failed error) :
    ∃ sigil middle, tokens = sigil :: middle ∧ sigil.kind = .vector ∧
      (callTail argument middle = .failed error ∨
        callTail argument middle = .absent ∧
          (Adjacent middle ∧ name middle = .failed error ∨
            Rule.adjacent name middle = .absent ∧ error.location = here middle)) := by
  rw [vector] at h
  obtain ⟨sigil, middle, rfl, kind, more⟩ := token_bind_eq_failed h
  refine ⟨sigil, middle, rfl, kind, ?_⟩
  obtain failed | ⟨absent, failed⟩ := or_eq_failed.1 (answer_eq_failed more)
  · exact .inl (answer_eq_failed failed)
  · obtain absent | ⟨_, _, -, absent⟩ := bind_eq_absent.1 absent
    · exact .inr ⟨absent, target_eq_failed failed⟩
    · cases absent

/-- An argument fails in one of its pieces. -/
lemma argument_eq_failed (h : Grammar.argument piece tokens = .failed error) :
    piece tokens = .failed error ∨
      ∃ first middle, piece tokens = .done first middle ∧
        many (Rule.adjacent piece) middle = .failed error := by
  rw [Grammar.argument] at h
  obtain failed | ⟨first, middle, read, more⟩ := bind_eq_failed.1 h
  · exact .inl failed
  · exact .inr ⟨first, middle, read, answer_eq_failed more⟩

/-- Arguments in parentheses fail in one of them, or where neither an argument nor the closing
parenthesis is. -/
lemma parenthesized_eq_failed (h : parenthesized argument tokens = .failed error) :
    ∃ opener middle, tokens = opener :: middle ∧ opener.kind = .openParen ∧
      (many argument middle = .failed error ∨
        ∃ args rest, many argument middle = .done args rest ∧ ¬ StartsWith [.closeParen] rest ∧
          error.location = here rest) := by
  rw [parenthesized] at h
  obtain ⟨opener, middle, rfl, opens, more⟩ := token_bind_eq_failed h
  exact ⟨opener, middle, rfl, opens, closed_eq_failed more⟩

/-- A statement fails behind the separators in front of it. -/
lemma separated_eq_failed :
    separated statement tokens = .failed error ↔
      statement (tokens.dropWhile fun t => t.kind = .separator) = .failed error := by
  rw [separated, bind_eq_failed]
  constructor
  · rintro (failed | ⟨_, _, dropped, failed⟩)
    · cases failed
    · cases dropped
      exact failed
  · exact fun failed => .inr ⟨(), _, rfl, failed⟩

/-- Statements fail in one of them. -/
lemma statements_eq_failed (h : statements statement tokens = .failed error) :
    many (separated statement) tokens = .failed error := by
  rw [statements] at h
  obtain failed | ⟨_, _, -, more⟩ := bind_eq_failed.1 h
  · exact failed
  · cases answer_eq_failed more

/-- A block fails in one of its statements, or where neither a statement nor the closing brace is.
-/
lemma block_eq_failed (h : block statement tokens = .failed error) :
    ∃ opener middle, tokens = opener :: middle ∧ opener.kind = .openBrace ∧
      (statements statement middle = .failed error ∨
        ∃ body rest, statements statement middle = .done body rest ∧
          ¬ StartsWith [.closeBrace] rest ∧ error.location = here rest) := by
  rw [block] at h
  obtain ⟨opener, middle, rfl, opens, more⟩ := token_bind_eq_failed h
  exact ⟨opener, middle, rfl, opens, closed_eq_failed more⟩

/-- A control call fails in its name, in its arguments or in its body, or where no name or no body
is. -/
lemma control_eq_failed (h : control argument statement tokens = .failed error) :
    ∃ sigil middle, tokens = sigil :: middle ∧ sigil.kind = .bang ∧
      (Adjacent middle ∧ argument middle = .failed error ∨
        Rule.adjacent argument middle = .absent ∧ error.location = here middle ∨
        ∃ name more, Adjacent middle ∧ argument middle = .done name more ∧
          (parenthesized argument more = .failed error ∨
            ∃ args last, optional (parenthesized argument) more = .done args last ∧
              (statement last = .failed error ∨
                statement last = .absent ∧ error.location = here last))) := by
  rw [control] at h
  obtain ⟨sigil, middle, rfl, kind, more⟩ := token_bind_eq_failed h
  refine ⟨sigil, middle, rfl, kind, ?_⟩
  obtain failed | ⟨name, behind, named, more⟩ := bind_eq_failed.1 more
  · exact (commit_eq_failed failed).imp adjacent_eq_failed.1 .inl
  · obtain ⟨near, named⟩ := adjacent_eq_done.1 (commit_eq_done.1 named)
    refine .inr (.inr ⟨name, behind, near, named, ?_⟩)
    obtain failed | ⟨args, last, listed, more⟩ := bind_eq_failed.1 more
    · exact .inl (optional_eq_failed.1 failed)
    · exact .inr ⟨args, last, listed, commit_eq_failed (answer_eq_failed more)⟩

/-- The end of a command fails where nothing ends one. -/
lemma endOfCommand_eq_failed (h : endOfCommand tokens = .failed error) :
    ¬ StartsWith [.separator, .closeBrace, .endMarker] tokens ∧ error.location = here tokens := by
  cases tokens with
  | nil =>
    cases h
    exact ⟨id, rfl⟩
  | cons t tokens =>
    rw [endOfCommand] at h
    cases kind : t.kind
    all_goals
      simp only [List.head?_cons, Option.map_some, kind] at h
      cases h
      try exact ⟨by simp [StartsWith, kind], rfl⟩

/-- A command fails in its name or in an argument, or where neither an argument nor its end is. -/
lemma command_eq_failed (h : command argument tokens = .failed error) :
    argument tokens = .failed error ∨
      ∃ name middle, argument tokens = .done name middle ∧
        (many argument middle = .failed error ∨
          ∃ args rest, many argument middle = .done args rest ∧
            ¬ StartsWith [.separator, .closeBrace, .endMarker] rest ∧
            error.location = here rest) := by
  rw [command] at h
  obtain failed | ⟨name, middle, named, more⟩ := bind_eq_failed.1 h
  · exact .inl failed
  · refine .inr ⟨name, middle, named, ?_⟩
    obtain failed | ⟨args, rest, listed, more⟩ := bind_eq_failed.1 more
    · exact .inl failed
    · exact .inr ⟨args, rest, listed, endOfCommand_eq_failed (answer_eq_failed more)⟩

/-- A script fails in one of its statements, or where neither a statement nor the end is. -/
lemma script_eq_failed {limit room : Nat} (h : script limit room tokens = .failed error) :
    statements (statementAt limit room) tokens = .failed error ∨
      ∃ body rest, statements (statementAt limit room) tokens = .done body rest ∧
        ¬ StartsWith [.endMarker] rest ∧ error.location = here rest := by
  rw [script] at h
  exact closed_eq_failed h

/-- Behind their opening parenthesis, arguments are never absent. -/
lemma arguments_ne_absent {β : Type} {value : List (Word Token) → β} :
    (do
      let args ← many argument
      let _ ← commit .argumentOrParen (token .closeParen)
      pure (value args) : Rule β) tokens ≠ .absent :=
  bind_ne_absent many_ne_absent fun _ _ => bind_ne_absent commit_ne_absent fun _ _ => pure_ne_absent

/-- The tail of a call is absent only where no parenthesis is adjacent. -/
lemma callTail_absent (absent : callTail argument tokens = .absent) :
    ¬ Symbol.callTail.Begins tokens := by
  rintro ⟨near, opens⟩
  rw [callTail] at absent
  obtain absent | ⟨_, _, -, absent⟩ := bind_eq_absent.1 absent
  · exact token_eq_absent.1 (absent_of_adjacent near absent) opens
  · exact bind_ne_absent commit_ne_absent (fun _ _ => arguments_ne_absent) absent

/-- Behind its sigil, a substitution is absent only if the tail of a call is. -/
lemma substitution_absent {sigil : Token} {middle : List Token} (kind : sigil.kind = .dollar)
    (absent : substitution argument (sigil :: middle) = .absent) :
    callTail argument middle = .absent := by
  rw [substitution] at absent
  obtain absent | ⟨_, _, read, absent⟩ := bind_eq_absent.1 absent
  · exact absurd (startsWith_cons kind) (token_eq_absent.1 absent)
  · obtain ⟨same, -⟩ := token_eq_done.1 read
    cases same
    obtain absent | ⟨_, _, -, absent⟩ := bind_eq_absent.1 absent
    · exact absent
    · exact absurd absent pure_ne_absent

/-- Arguments in parentheses are absent only where no parenthesis is. -/
lemma parenthesized_absent (absent : parenthesized argument tokens = .absent) :
    ¬ StartsWith [.openParen] tokens := by
  rw [parenthesized] at absent
  obtain absent | ⟨_, _, -, absent⟩ := bind_eq_absent.1 absent
  · exact token_eq_absent.1 absent
  · exact absurd absent arguments_ne_absent

/-- Statements are not absent, since there may be none. -/
lemma statements_ne_absent : statements statement tokens ≠ .absent :=
  bind_ne_absent many_ne_absent fun _ _ =>
    bind_ne_absent (by simp [separators]) fun _ _ => pure_ne_absent

/-- A block is absent only where no brace is. -/
lemma block_absent (absent : block statement tokens = .absent) :
    ¬ StartsWith [.openBrace] tokens := by
  rw [block] at absent
  obtain absent | ⟨_, _, -, absent⟩ := bind_eq_absent.1 absent
  · exact token_eq_absent.1 absent
  · refine absurd absent (bind_ne_absent statements_ne_absent fun _ _ => ?_)
    exact bind_ne_absent commit_ne_absent fun _ _ => pure_ne_absent

/-- A control call is absent only where no sigil is. -/
lemma control_absent (absent : control argument statement tokens = .absent) :
    ¬ StartsWith [.bang] tokens := by
  rw [control] at absent
  obtain absent | ⟨_, _, -, absent⟩ := bind_eq_absent.1 absent
  · exact token_eq_absent.1 absent
  · refine absurd absent (bind_ne_absent commit_ne_absent fun _ _ => ?_)
    refine bind_ne_absent optional_ne_absent fun _ _ => ?_
    exact bind_ne_absent commit_ne_absent fun _ _ => pure_ne_absent

/-- The end of a command is there or fails. -/
lemma endOfCommand_ne_absent : endOfCommand tokens ≠ .absent := by
  rw [endOfCommand]
  split <;> simp [fail]

/-- A command is absent only where no argument is. -/
lemma command_absent (absent : command argument tokens = .absent) :
    argument tokens = .absent := by
  rw [command] at absent
  obtain absent | ⟨_, _, -, absent⟩ := bind_eq_absent.1 absent
  · exact absent
  · refine absurd absent (bind_ne_absent many_ne_absent fun _ _ => ?_)
    exact bind_ne_absent endOfCommand_ne_absent fun _ _ => pure_ne_absent

/-- A script is not absent. -/
lemma script_ne_absent {limit room : Nat} : script limit room tokens ≠ .absent :=
  bind_ne_absent statements_ne_absent fun _ _ =>
    bind_ne_absent commit_ne_absent fun _ _ => pure_ne_absent

end Grammar

end Scriptlet
