import Scriptlet.Proofs.Errors.Excerpts
import Scriptlet.Proofs.Lexer.Balance
import Scriptlet.Proofs.Lexer.Lines
import Scriptlet.Proofs.Syntax.Ending
import Scriptlet.Proofs.Syntax.Viable

/-!
# Where reports point

The error of a text that is no script is located at the start of a token, at a quote that opens a
literal, or at the end of the text. If line feeds separate statements and verbatim text ends with
its line, an error at the end stands behind a statement that is not complete, and so not at the
start of a line: a script could end there. Hence the report shows the line of the error, with the
caret beneath it (`Script.report_points`).
-/

namespace Scriptlet

open Excerpt Grammar

variable {options : Options} {before text gap taken rest tail lexeme : List Char}
  {earlier tokens : List Token} {kind : TokenKind}

section Places

/-- Verbatim text starts with no blank of its line. -/
lemma lineAhead_starts {c : Char} {more : List Char} (here : lineAhead options text = c :: more) :
    isInlineBlank c = false := by
  have first := congrArg List.head? here
  rw [lineAhead, List.head?_takeWhile, List.head?_cons, Option.filter_eq_some_iff] at first
  exact head_dropWhile isInlineBlank text c first.1

/-- No token starts with a carriage return. -/
lemma Ahead.starts (ahead : Ahead options earlier text gap kind lexeme taken rest) :
    ∃ c more, taken = c :: more ∧ c ≠ '\r' := by
  obtain ⟨c, more, here⟩ := List.exists_cons_of_ne_nil ahead.taken_ne_nil
  refine ⟨c, more, here, ?_⟩
  rintro rfl
  cases ahead with
  | line => cases lineAhead_starts here
  | plain _ _ _ longest =>
    cases longest.spelled with
    | ending => cases here
    | sign sign =>
      obtain ⟨d, others, rfl, starts⟩ := sign.starts
      cases here
      exact absurd starts (by decide)
    | literal _ plain =>
      have literal := plain '\r' (by simp [here])
      have blank : Text.isBlank '\r' := by decide
      simp [Options.isLiteral, blank] at literal
    | quoted => cases here
    | verbatim due => exact due.elim

/-- If verbatim text ends with its line, no token but a separator ends with a line feed. -/
lemma Ahead.ends (toLine : options.verbatimToEnd = false)
    (ahead : Ahead options earlier text gap kind lexeme taken rest) (other : kind ≠ .separator) :
    taken.getLast? ≠ some '\n' := by
  intro last
  cases ahead with
  | line =>
    have verbatim := List.mem_takeWhile_imp (List.mem_of_getLast? last)
    rw [isVerbatim_eq toLine] at verbatim
    cases verbatim
  | plain _ _ _ longest =>
    cases longest.spelled with
    | ending => cases last
    | sign sign =>
      cases sign with
      | feed => exact other rfl
      | _ => cases last
    | literal _ plain =>
      have literal := plain '\n' (List.mem_of_getLast? last)
      rw [not_isLiteral (by decide)] at literal
      cases literal
    | quoted =>
      rw [← List.cons_append, List.getLast?_concat] at last
      cases last
    | verbatim due => exact due.elim

/-- Where line feeds separate, a gap outside of parentheses stays in its line. -/
lemma Gap.line (feeds : options.newlineSeparates = true) (skipped : Gap options false rest gap) :
    '\n' ∉ gap := by
  induction skipped with
  | nil => exact List.not_mem_nil
  | blank blank _ ih =>
    refine List.not_mem_cons_of_ne_of_not_mem ?_ ih
    rintro rfl
    cases blank
  | feed free => simp [feeds] at free
  | comment _ line _ _ ih => simp [line, ih]

/-- Every token of a cut starts at a character that is no carriage return. -/
lemma Cut.sits (cut : Cut options before earlier text tokens tail) :
    ∀ t ∈ tokens, Sits (before ++ text) t.start := by
  induction cut with
  | stop => exact fun _ inside => absurd inside List.not_mem_nil
  | @token before _ text gap taken rest token _ _ ahead span _ _ ih =>
    have whole : before ++ text = before ++ gap ++ taken ++ rest := by
      rw [ahead.whole]
      simp
    refine List.forall_mem_cons.2 ⟨?_, by rwa [whole]⟩
    obtain ⟨c, more, rfl, solid⟩ := ahead.starts
    rw [Token.start, span]
    exact .character (by rw [whole, List.append_assoc _ _ rest, List.cons_append]) solid

/-- Behind a token that is no separator, a text does not end at the start of a line. -/
lemma Cut.ends_inside (feeds : options.newlineSeparates = true)
    (toLine : options.verbatimToEnd = false) (cut : Cut options before earlier text tokens tail)
    (through : tail = []) (outside : (openBrackets (earlier ++ tokens)).head? ≠ some .paren)
    {last : Token} (ends : tokens.getLast? = some last) (other : last.kind ≠ .separator) :
    (Location.behind (before ++ text)).column ≠ 0 := by
  induction cut with
  | stop => cases ends
  | @token before earlier text gap taken rest token tokens _ ahead _ _ cut ih =>
    have whole : before ++ text = before ++ gap ++ taken ++ rest := by
      rw [ahead.whole]
      simp
    rw [whole]
    rw [List.append_cons] at outside
    cases cut with
    | @stop _ _ _ blanks _ stops =>
      cases ends
      have free : ((openBrackets (earlier ++ [token])).head? == some .paren) = false := by
        simpa using outside
      have skipped := stops.skipped.skipped
      rw [free] at skipped
      obtain ⟨front, c, rfl⟩ := (List.eq_nil_or_concat' taken).resolve_left ahead.taken_ne_nil
      have solid : '\n' ≠ c := by
        rintro rfl
        exact ahead.ends toLine other List.getLast?_concat
      have inner := List.not_mem_cons_of_ne_of_not_mem solid (skipped.line feeds)
      rw [stops.whole, through, List.append_nil, ← List.append_assoc _ front, List.append_assoc,
        List.singleton_append]
      exact column_behind inner
    | token => exact ih through outside ends

/-- The end marker is empty. -/
lemma Tiling.marker_start (tiling : Tiling options before earlier tokens text) :
    ∀ t ∈ tokens, t.kind = .endMarker → t.start = t.span.stop := by
  induction tiling with
  | nil => nofun
  | cons _ spelled span _ _ ih =>
    refine List.forall_mem_cons.2 ⟨fun kind => ?_, ih⟩
    rw [Token.start, span, spelled.nothing kind, List.append_nil]

/-- Well nested tokens leave the brackets that are open as they are. -/
lemma WellNested.nestAll (nested : WellNested tokens) (brackets : List Bracket) :
    Grammar.nestAll brackets tokens = brackets := by
  induction nested generalizing brackets with
  | nil => rfl
  | @flat token _ flat _ ih =>
    rw [nestAll_cons, flat.nest]
    exact ih brackets
  | @nested bracket _ _ _ _ opens _ closes _ ihInner ih =>
    rw [nestAll_cons, opens, nestAll_append, ihInner, nestAll_cons, closes]
    cases bracket
    all_goals exact ih brackets

end Places

/-- What no cut goes through fails at a token or at a quote. -/
lemma Imbalance.sits {error : LexError} (imbalance : Imbalance options text tokens tail error)
    (cut : Cut options [] [] text tokens tail) : Sits text error.location := by
  have starts := cut.sits
  rw [List.nil_append] at starts
  cases imbalance with
  | unmatched split => exact starts _ (by simp [split])
  | mismatched split => exact starts _ (by simp [split])
  | unterminated _ unclosed split =>
    obtain ⟨-, body, rfl, -⟩ := unclosed
    exact .character split (by decide)
  | unclosed _ around =>
    cases around with
    | opened => exact starts _ (by simp)

/-- The parser finds an error at the start of a token, or at the end of a text that does not end at
the start of a line. -/
lemma parseTokens_sits {source : String} {marker : Token} {error : ParseError}
    (feeds : options.newlineSeparates = true) (toLine : options.verbatimToEnd = false)
    (cut : Cut options [] [] source.toList tokens []) (nested : WellNested tokens)
    (split : tokenize options source = .ok (tokens ++ [marker]))
    (rejected : parseTokens 0 (tokens ++ [marker]) = .error error) :
    Sits source.toList error.location := by
  obtain ⟨tiling, ends⟩ := tokenize_tiling split
  obtain ⟨before, t, after, whole, place, blocked, d, more, begins, proper⟩ :=
    parseTokens_fails ends rejected
  rw [place]
  cases after using List.reverseRecOn with
  | append_singleton after _ =>
    rw [← List.cons_append, ← List.append_assoc] at whole
    obtain ⟨rfl, -⟩ := List.append_inj' whole rfl
    exact cut.sits t (by simp)
  | nil =>
    obtain ⟨rfl, same⟩ := List.append_inj' whole rfl
    obtain rfl : marker = t := List.singleton_inj.1 same
    have kind : marker.kind = .endMarker := by
      obtain ⟨front, last, same, kind, -⟩ := ends
      rwa [List.singleton_inj.1 (List.append_inj' same rfl).2]
    have here : marker.start = .behind source.toList := by
      rw [tiling.marker_start marker (by simp) kind]
      exact tiling.stops marker (by simp)
    rw [here]
    refine .ending ?_
    have closed : nestAll [] tokens = [] := nested.nestAll []
    by_cases separated : ∀ t ∈ tokens.getLast?, t.kind = .separator
    · obtain ⟨d', early, proper'⟩ := d.ends_early proper begins closed separated kind
      exact absurd (by simp [early]) (blocked d' [] [marker] proper' trivial rfl)
    · obtain ⟨last, other⟩ := not_forall.1 separated
      obtain ⟨ends, other⟩ := Classical.not_imp.1 other
      refine cut.ends_inside feeds toLine rfl ?_ ends other
      show (nestAll [] tokens).head? ≠ _
      rw [closed]
      nofun

namespace Script

variable {source : String} {error : ParseError}

/-- The error of a text that is no script is located where something stands, or at the end of a text
that does not end at the start of a line. -/
lemma error_sits (feeds : options.newlineSeparates = true) (toLine : options.verbatimToEnd = false)
    (failed : parse options 0 source = .error error) : Sits source.toList error.location := by
  obtain ⟨tokens, tail, cut, -, ⟨marker, split, -, rfl, nested⟩ | ⟨fault, split, imbalance⟩⟩ :=
    tokenize_cut options source
  · refine parseTokens_sits feeds toLine cut nested split ?_
    rw [parse, split] at failed
    change (parseTokens 0 (tokens ++ [marker]) >>= _) = _ at failed
    cases rejected : parseTokens 0 (tokens ++ [marker]) with
    | ok body =>
      rw [rejected] at failed
      cases failed
    | error other =>
      rw [rejected] at failed
      cases failed
      rfl
  · rw [parse, split] at failed
    cases failed
    exact imbalance.sits cut

/-- Reports point at the offending character. If line feeds separate statements and verbatim text
ends with its line, the error of a text that is no script is located in a line of the text. Its
report shows an ellipsis if that line has more than three lines above it, and the last three of
those lines and the line itself, each behind its number and a blank; the numbers are all as wide as
the number of lines. Beneath the last of them is a caret, in the column of the character that stands
at the location, or behind all characters of the line if its end stands there; then comes the
message. -/
theorem report_points (feeds : options.newlineSeparates = true)
    (toLine : options.verbatimToEnd = false) (failed : parse options 0 source = .error error) :
    error.location.line < (lines source.toList).length ∧
    error.render source = "\n".intercalate (
      (if 3 < error.location.line then ["..."] else []) ++
      ((List.range (error.location.line + 1)).drop (error.location.line - 3)).map
        (numbered source) ++
      [String.ofList (List.replicate (margin source + 1 + error.location.column) ' ') ++ "^",
        s!"line {error.location.line}: {error.message}"]) ∧
    (∀ n < (lines source.toList).length, (padded (margin source) n).length = margin source) ∧
    ∃ before after, source.toList = before ++ after ∧ error.location = .behind before ∧
      (numbered source error.location.line).toList[margin source + 1 + error.location.column]? =
        after.head?.filter (· != '\n') := by
  obtain ⟨before, after, line, split, place, present, shown⟩ :=
    (error_sits feeds toLine failed).shown
  obtain ⟨below, -⟩ := List.getElem?_eq_some_iff.1 present
  refine ⟨below, render_eq error.message below, fun n => length_padded, before, after, split, place,
    ?_⟩
  rw [getElem?_numbered present, shown]

/-- The caret is beneath the bang in the last of five lines. -/
theorem bang_report : ∃ error, ({} : Options).newlineSeparates = true ∧
    ({} : Options).verbatimToEnd = false ∧ parse {} 0 "a\nb\nc\nd\ne!" = .error error ∧
    error.location = ⟨4, 1⟩ ∧
    error.render "a\nb\nc\nd\ne!" =
      "...\n1 b\n2 c\n3 d\n4 e!\n   ^\nline 4: '!' may only introduce a control call" := by
  obtain ⟨error, failed, place, message⟩ : ∃ error,
      parse {} 0 "a\nb\nc\nd\ne!" = .error error ∧ error.location = ⟨4, 1⟩ ∧
        error.message = "'!' may only introduce a control call" := ⟨_, rfl, rfl, rfl⟩
  refine ⟨error, rfl, rfl, failed, place, ?_⟩
  obtain ⟨-, shows, -⟩ := report_points rfl rfl failed
  rw [shows, place, message]
  rfl

end Script

end Scriptlet
