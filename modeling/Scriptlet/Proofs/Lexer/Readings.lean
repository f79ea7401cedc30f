import Scriptlet.Proofs.Lexer.Spelling

/-!
# Reading a script to its end

Each token but the end marker takes a character, so that every script is read up to its end marker
or up to its first fault; what a script is split into is what was read on the way.
-/

namespace Scriptlet

namespace Lexer

variable {options : Options} {lx last behind : Lexer} {token : Token} {tokens : List Token}
  {error : LexError}

/-- Following triggers moves nothing. -/
lemma trackTriggers_eq (options : Options) (lx : Lexer) (token : Token) :
    ∃ verbatim atStatement, lx.trackTriggers options token =
      { lx with verbatim := verbatim, atStatement := atStatement } := by
  rw [trackTriggers]
  split
  · split
    all_goals exact ⟨_, _, rfl⟩
  · split
    all_goals exact ⟨_, _, rfl⟩
  · exact ⟨_, _, rfl⟩

/-- The triggers leave the text ahead as it is. -/
@[simp]
lemma trackTriggers_rest : (lx.trackTriggers options token).rest = lx.rest := by
  obtain ⟨verbatim, atStatement, same⟩ := trackTriggers_eq options lx token
  rw [same]

/-- The triggers leave the offset as it is. -/
@[simp]
lemma trackTriggers_offset : (lx.trackTriggers options token).offset = lx.offset := by
  obtain ⟨verbatim, atStatement, same⟩ := trackTriggers_eq options lx token
  rw [same]

/-- The triggers leave the place as it is. -/
@[simp]
lemma trackTriggers_location : (lx.trackTriggers options token).location = lx.location := by
  obtain ⟨verbatim, atStatement, same⟩ := trackTriggers_eq options lx token
  rw [same]

/-- The triggers leave the brackets as they are. -/
@[simp]
lemma trackTriggers_brackets : (lx.trackTriggers options token).brackets = lx.brackets := by
  obtain ⟨verbatim, atStatement, same⟩ := trackTriggers_eq options lx token
  rw [same]

/-- A token is read by a scan, and then followed for triggers. -/
lemma next_ok (read : lx.next options = (.ok token, last)) :
    ∃ mid, lx.scan options = (.ok token, mid) ∧ last = mid.trackTriggers options token := by
  rw [next] at read
  split at read
  case h_1 mid scanned =>
    cases read
    exact ⟨mid, scanned, rfl⟩
  case h_2 => cases read

/-- A reading fails where its scan does. -/
lemma next_error :
    lx.next options = (.error error, last) ↔ lx.scan options = (.error error, last) := by
  rw [next]
  split
  case h_1 scanned => simp [scanned]
  case h_2 scanned => rw [scanned]

/-- Every token but the end marker leaves less of the text. -/
lemma next_shorter (read : lx.next options = (.ok token, last)) (inner : token.kind ≠ .endMarker) :
    last.rest.length < lx.rest.length := by
  obtain ⟨mid, scanned, rfl⟩ := next_ok read
  obtain ⟨gap, taken, more⟩ := scan_taken scanned
  have filled : 0 < taken.length := List.length_pos_iff.2 (more.spelled.ne_nil inner)
  rw [trackTriggers_rest, more.rest, List.length_append, List.length_append]
  omega

/-- The reading comes to the end marker, or to a fault. -/
inductive Halts (options : Options) (lx : Lexer) : Except LexError Token → Prop
  | ends {marker : Token} {behind : Lexer} :
    lx.next options = (.ok marker, behind) →
    marker.kind = .endMarker →
    Halts options lx (.ok marker)
  | fails {error : LexError} {behind : Lexer} :
    lx.next options = (.error error, behind) →
    Halts options lx (.error error)

/-- Every text is read up to its end marker or its first fault. -/
lemma reads_through (options : Options) (lx : Lexer) :
    ∃ tokens last result, lx.Reads options tokens last ∧ last.Halts options result := by
  -- the text that is left gets shorter with each token
  induction size : lx.rest.length using Nat.strong_induction_on generalizing lx with
  | h size ih =>
    match read : lx.next options with
    | (.error error, behind) => exact ⟨[], lx, _, .nil, .fails read⟩
    | (.ok token, mid) =>
      by_cases kind : token.kind = .endMarker
      · exact ⟨[], lx, _, .nil, .ends read kind⟩
      · have shorter := next_shorter read kind
        obtain ⟨tokens, last, result, reads, halts⟩ := ih _ (size ▸ shorter) mid rfl
        exact ⟨token :: tokens, last, result, .cons read kind shorter reads, halts⟩

/-- The readings are the tokens, and how the reading halts. -/
lemma Reads.readings_halts {result : Except LexError Token} (reads : Reads options lx tokens last)
    (halts : last.Halts options result) {room : Nat} (enough : lx.rest.length < room) :
    lx.readings options room = tokens.map .ok ++ [result] := by
  cases halts with
  | ends ends kind =>
    rw [reads.readings ends kind enough, List.map_append]
    rfl
  | fails fails =>
    induction reads generalizing room with
    | nil =>
      obtain _ | room := room
      · cases enough
      rw [Lexer.readings, fails]
      rfl
    | cons read inner shorter _ ih =>
      obtain _ | room := room
      · cases enough
      rw [Lexer.readings, read]
      dsimp only
      rw [if_neg inner, ih (by omega) fails]
      rfl

end Lexer

/-- Readings in a row come to the fault at their end. -/
lemma mapM_error {ε α : Type} (values : List α) (error : ε) :
    (values.map Except.ok ++ [.error error] : List (Except ε α)).mapM id = .error error := by
  induction values with
  | nil => rfl
  | cons value values ih =>
    rw [List.map_cons, List.cons_append, List.mapM_cons, ih]
    rfl

variable {options : Options} {source : String} {tokens : List Token} {last : Lexer}

/-- A script is split into the tokens that are read, if it is read to its end. -/
lemma tokenize_ends {marker : Token} (reads : (Lexer.ofText source).Reads options tokens last)
    (ends : last.Halts options (.ok marker)) :
    tokenize options source = .ok (tokens ++ [marker]) := by
  rw [tokenize, readings, reads.readings_halts ends (Nat.lt_succ_self _)]
  rw [show [(.ok marker : Except LexError Token)] = [marker].map .ok from rfl, ← List.map_append,
    mapM_ok]

/-- What a script is split into was read up to the end marker. -/
lemma reads_of_tokenize (split : tokenize options source = .ok tokens) :
    ∃ front last marker behind, (Lexer.ofText source).Reads options front last ∧
      last.next options = (.ok marker, behind) ∧ marker.kind = .endMarker ∧
      tokens = front ++ [marker] := by
  obtain ⟨front, last, result, reads, halts⟩ := Lexer.reads_through options (.ofText source)
  cases halts with
  | fails fails =>
    rw [tokenize, readings, reads.readings_halts (.fails fails) (Nat.lt_succ_self _),
      mapM_error] at split
    cases split
  | @ends marker behind ends kind =>
    rw [tokenize_ends reads (.ends ends kind)] at split
    cases split
    exact ⟨front, last, marker, behind, reads, ends, kind, rfl⟩

/-- The first fault is the fault of the script. -/
lemma tokenize_fails {error : LexError} (reads : (Lexer.ofText source).Reads options tokens last)
    (fails : last.Halts options (.error error)) :
    tokenize options source = .error error := by
  rw [tokenize, readings, reads.readings_halts fails (Nat.lt_succ_self _), mapM_error]

end Scriptlet
