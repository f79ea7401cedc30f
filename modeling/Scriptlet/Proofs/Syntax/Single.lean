import Scriptlet.Proofs.Shape.Spans
import Scriptlet.Proofs.Syntax.Arguments
import Scriptlet.Proofs.Syntax.Failures
import Scriptlet.Proofs.Syntax.Nesting

/-!
# A single statement

The rule for a single statement takes the same first statement as the rule for scripts, and then
needs the end where the other one goes on. So it reads exactly the scripts of at most one statement,
and any longer script fails at the start of its second statement (`Script.parseStatement_iff`).
-/

namespace Scriptlet

namespace Grammar

open Rule

variable {limit room : Nat} {tokens rest middle : List Token} {body : List (Statement Token)}
  {s t : Statement Token} {marker : Token}

/-- No statement starts at the end. -/
lemma statementAt_absent_end (enough : 1 < room) (kind : marker.kind = .endMarker) :
    statementAt limit room (marker :: rest) = .absent :=
  statementAt_eq_absent enough ((startsWith_cons kind).apart (by decide))

/-- Behind the separators, there is no statement either. -/
lemma separated_absent_end (enough : 1 < room) (kind : marker.kind = .endMarker)
    (dropped : middle.dropWhile (fun t => t.kind = .separator) = marker :: rest) :
    separated (statementAt limit room) middle = .absent := by
  refine bind_eq_absent.2 (.inr ⟨(), _, rfl, ?_⟩)
  rw [dropped]
  exact statementAt_absent_end enough kind

/-- A script is statements up to the end. -/
lemma script_repeats (enough : 1 < room) :
    script limit room tokens = .done body rest ↔
      ∃ middle marker, Repeats (separated (statementAt limit room)) tokens body middle ∧
        middle.dropWhile (fun t => t.kind = .separator) = marker :: rest ∧
        marker.kind = .endMarker := by
  have consumes : Consumes (separated (statementAt limit room)) :=
    (separated_reads (statementAt_reads room)).consumes id
  have nothing : separated (statementAt limit room) [] = .absent :=
    bind_eq_absent.2 (.inr ⟨(), [], rfl, statementAt_eq_absent enough id⟩)
  constructor
  · intro done
    obtain ⟨marker, stated, kind⟩ := script_eq_done.1 done
    obtain ⟨middle, listed, dropped⟩ := statements_eq_done.1 stated
    exact ⟨middle, marker, many_repeats consumes listed, dropped, kind⟩
  · rintro ⟨middle, marker, rounds, dropped, kind⟩
    have stated := statements_eq_done.2 ⟨middle, rounds.many consumes nothing, dropped⟩
    exact script_eq_done.2 ⟨marker, stated, kind⟩

/-- A statement alone may have separators on both sides, up to the end marker. -/
lemma single_eq_done {value : Option (Statement Token)} :
    single limit room tokens = .done value rest ↔
      ∃ middle marker,
        optional (statementAt limit room) (tokens.dropWhile fun t => t.kind = .separator) =
          .done value middle ∧
        middle.dropWhile (fun t => t.kind = .separator) = marker :: rest ∧
        marker.kind = .endMarker := by
  rw [single]
  simp only [bind_eq_done, commit_eq_done, token_eq_done, pure_eq_done]
  constructor
  · rintro ⟨_, _, dropped, _, middle, found, _, _, dropped', marker, _, ⟨ends, kind⟩, rfl, rfl⟩
    cases dropped
    cases dropped'
    exact ⟨middle, marker, found, ends, kind⟩
  · rintro ⟨middle, marker, found, dropped, kind⟩
    exact ⟨(), _, rfl, value, middle, found, (), _, rfl, marker, rest, ⟨dropped, kind⟩, rfl, rfl⟩

/-- One statement is read as a script is that consists of it. -/
lemma single_some (enough : 1 < room) :
    single limit room tokens = .done (some s) rest ↔
      script limit room tokens = .done [s] rest := by
  rw [script_repeats enough, single_eq_done]
  constructor
  · rintro ⟨middle, marker, found, dropped, kind⟩
    obtain ⟨_, same, stated⟩ | ⟨missing, -⟩ := optional_eq_done.1 found
    · cases same
      have first := separated_eq_done.2 stated
      refine ⟨middle, marker, .more first (.stop (.inr ?_)), dropped, kind⟩
      exact separated_absent_end enough kind dropped
    · cases missing
  · rintro ⟨middle, marker, rounds, dropped, kind⟩
    cases rounds with
    | more first others =>
      cases others with
      | stop _ =>
        have stated := separated_eq_done.1 first
        exact ⟨middle, marker, optional_eq_done.2 (.inl ⟨s, rfl, stated⟩), dropped, kind⟩

/-- No statement is read as an empty script is. -/
lemma single_none (enough : 1 < room) :
    single limit room tokens = .done none rest ↔ script limit room tokens = .done [] rest := by
  rw [script_repeats enough, single_eq_done]
  constructor
  · rintro ⟨middle, marker, found, dropped, kind⟩
    obtain ⟨_, missing, -⟩ | ⟨-, rfl, absent⟩ := optional_eq_done.1 found
    · cases missing
    · rw [dropWhile_of_not_startsWith not_startsWith_dropWhile] at dropped
      exact ⟨tokens, marker, .stop (.inr (separated_absent_end enough kind dropped)), dropped, kind⟩
  · rintro ⟨middle, marker, rounds, dropped, kind⟩
    cases rounds with
    | stop _ =>
      refine ⟨marker :: rest, marker, optional_eq_done.2 (.inr ⟨rfl, dropped, ?_⟩), ?_, kind⟩
      · rw [dropped]
        exact statementAt_absent_end enough kind
      · rw [← dropped]
        exact dropWhile_of_not_startsWith not_startsWith_dropWhile

/-- What the rule for single statements reads, the rule for scripts reads as a list. -/
lemma single_iff (enough : 1 < room) {value : Option (Statement Token)} :
    single limit room tokens = .done value rest ↔
      script limit room tokens = .done value.toList rest := by
  cases value with
  | none => exact single_none enough
  | some s => exact single_some enough

/-- A statement starts at its first token. -/
lemma Derivation.statement_start (d : Derivation .statement) :
    ∃ t more, d.tokens = t :: more ∧ d.tree.outline.span.start = t.start := by
  cases d with
  | block opener body closer => exact ⟨opener, _, rfl, Outline.start_of_origin opener⟩
  | control sigil name params body => exact ⟨sigil, _, rfl, Outline.start_of_origin sigil⟩
  | command name args =>
    obtain ⟨t, origin⟩ := Option.isSome_iff_exists.1 (Word.origin_isSome name.documented)
    obtain ⟨more, written⟩ := argument_origin name origin
    refine ⟨t, more ++ args.tokens, ?_, ?_⟩
    · rw [Derivation.tokens, written]
      rfl
    · exact Outline.start_of_isSome (show name.tree.origin? = some t from origin)

/-- Behind the only statement, anything but separators and the end is an error. -/
lemma single_left
    (present : statementAt limit room (tokens.dropWhile fun t => t.kind = .separator) =
      .done s middle)
    (left : ¬ StartsWith [.endMarker] (middle.dropWhile fun t => t.kind = .separator)) :
    ∃ found, single limit room tokens =
      .failed ⟨.grammar (.expected .onlyStatement found),
        here (middle.dropWhile fun t => t.kind = .separator)⟩ := by
  have fails : commit .onlyStatement (token .endMarker)
      (middle.dropWhile fun t => t.kind = .separator) =
        .failed ⟨.grammar (.expected .onlyStatement
          (middle.dropWhile fun t => t.kind = .separator).head?),
          here (middle.dropWhile fun t => t.kind = .separator)⟩ := by
    rw [commit, token_eq_absent.2 left]
    rfl
  have stated := optional_eq_done.2 (.inl ⟨s, rfl, present⟩)
  exact ⟨_, bind_eq_failed.2 (.inr ⟨(), _, rfl, bind_eq_failed.2 (.inr ⟨some s, middle, stated,
    bind_eq_failed.2 (.inr ⟨(), _, rfl, bind_eq_failed.2 (.inl fails)⟩)⟩)⟩)⟩

/-- Where a script goes on with a second statement, a single statement fails. -/
lemma single_second (enough : 1 < room)
    (read : script limit room tokens = .done (s :: t :: body) rest) :
    ∃ found, single limit room tokens =
      .failed ⟨.grammar (.expected .onlyStatement found), t.outline.span.start⟩ := by
  obtain ⟨middle, marker, rounds, -, -⟩ := (script_repeats enough).1 read
  cases rounds with
  | @more _ behind _ _ _ first others =>
    cases others with
    | @more _ last _ _ _ second _ =>
      obtain ⟨d, proper, written, rfl⟩ := statementAt_reads room (separated_eq_done.1 second)
      obtain ⟨next, more, same, start⟩ := d.statement_start
      have left : ¬ StartsWith [.endMarker] (behind.dropWhile fun t => t.kind = .separator) := by
        rw [written]
        exact StartsWith.apart ((d.begins proper).append last) (by decide)
      have place : here (behind.dropWhile fun t => t.kind = .separator) =
          d.tree.outline.span.start := by
        rw [written, same, start]
        rfl
      rw [← place]
      exact single_left (separated_eq_done.1 first) left

/-- Without a limit, there is room for a statement and its first piece. -/
lemma room_two (tokens : List Token) : 1 < Grammar.room 0 tokens := by
  show _ < 2 * tokens.length + 2
  omega

end Grammar

namespace Script

variable {options : Options} {source : String}

/-- What is read from the tokens of a text is what is read from the text. -/
lemma parse_iff_tokens {limit : Nat} {body : List (Statement Token)} :
    parse options limit source = .ok ⟨source, body⟩ ↔
      ∃ tokens, tokenize options source = .ok tokens ∧
        Grammar.parseTokens limit tokens = .ok body :=
  ⟨parse_eq_ok, fun ⟨_, split, built⟩ => parse_of_tokens split built⟩

/-- What a text is as a statement is what its tokens are. -/
lemma parseStatement_of_tokens {limit : Nat} {tokens : List Token}
    (split : tokenize options source = .ok tokens) :
    parseStatement options limit source = Grammar.parseSingle limit tokens := by
  rw [parseStatement, split]
  rfl

/-- A text is a statement if it is split into tokens that are. -/
lemma parseStatement_iff_tokens {limit : Nat} {value : Option (Statement Token)} :
    parseStatement options limit source = .ok value ↔
      ∃ tokens, tokenize options source = .ok tokens ∧
        Grammar.parseSingle limit tokens = .ok value := by
  constructor
  · intro read
    cases split : tokenize options source with
    | error error =>
      rw [parseStatement, split] at read
      cases read
    | ok tokens => exact ⟨tokens, rfl, (parseStatement_of_tokens split).symm.trans read⟩
  · rintro ⟨tokens, split, built⟩
    exact (parseStatement_of_tokens split).trans built

/-- A single statement, or none, is read from a text that is read as the script of it. -/
lemma parseStatement_toList {value : Option (Statement Token)} :
    parseStatement options 0 source = .ok value ↔
      parse options 0 source = .ok ⟨source, value.toList⟩ := by
  rw [parseStatement_iff_tokens, parse_iff_tokens]
  refine exists_congr fun tokens => and_congr_right fun _ => ?_
  rw [Grammar.parseSingle, Grammar.parseTokens, Grammar.finish_eq_ok, Grammar.finish_eq_ok]
  exact exists_congr fun rest => Grammar.single_iff (Grammar.room_two tokens)

/-- Reading a single statement is reading a script that has at most one: it yields the statement of
the script, nothing if the script is empty, and an error at the start of the second statement if
there are more; a text that is no script is no statement either. -/
theorem parseStatement_iff (options : Options) (source : String) :
    (∀ s, parseStatement options 0 source = .ok (some s) ↔
      parse options 0 source = .ok ⟨source, [s]⟩) ∧
    (parseStatement options 0 source = .ok none ↔ parse options 0 source = .ok ⟨source, []⟩) ∧
    (∀ s t more, parse options 0 source = .ok ⟨source, s :: t :: more⟩ →
      ∃ error, parseStatement options 0 source = .error error ∧ error.stage = "syntax" ∧
        error.location = t.outline.span.start) ∧
    ∀ error, parse options 0 source = .error error →
      ∃ error', parseStatement options 0 source = .error error' := by
  refine ⟨fun s => parseStatement_toList, parseStatement_toList, ?_, ?_⟩
  · intro s t more read
    obtain ⟨tokens, split, built⟩ := parse_eq_ok read
    obtain ⟨rest, done⟩ := Grammar.finish_eq_ok.1 built
    obtain ⟨found, failed⟩ := Grammar.single_second (Grammar.room_two tokens) done
    refine ⟨⟨.grammar (.expected .onlyStatement found), t.outline.span.start⟩, ?_, rfl, rfl⟩
    rw [parseStatement_of_tokens split, Grammar.parseSingle, failed]
    rfl
  · intro error failed
    -- what is read as a statement, or as nothing, would be read as a script
    cases read : parseStatement options 0 source with
    | error error' => exact ⟨error', rfl⟩
    | ok value => cases failed.symm.trans (parseStatement_toList.1 read)

/-- A block and a command, which nothing needs to separate. -/
theorem block_and_command_refused :
    parse {} 0 "{}b" = .ok ⟨"{}b",
      [.block ⟨.openBrace, "\x7b", ⟨⟨0, 0⟩, ⟨0, 1⟩⟩, true⟩ [],
        .command (.literal ⟨.literal, "b", ⟨⟨0, 2⟩, ⟨0, 3⟩⟩, false⟩ "b") []]⟩ ∧
    ∃ error, parseStatement {} 0 "{}b" = .error error ∧ error.stage = "syntax" ∧
      error.location = ⟨0, 2⟩ := by
  refine ⟨rfl, ?_⟩
  exact (parseStatement_iff {} "{}b").2.2.1 _ _ [] rfl

end Script

end Scriptlet
