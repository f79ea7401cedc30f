import Scriptlet.Proofs.Supply.Passes

/-!
# A supply of tokens always makes progress

A supply is a scanner that also keeps whether it has given the end marker. Tokens can be drawn from
it one by one, collected up to the end marker, or iterated over. Wherever readings have led it, each
of these comes to an end: every token but the end marker takes a character of the text.
-/

namespace Scriptlet

open String (utf8Len)

namespace Lexer

variable {options : Options} {lx last : Lexer} {token : Token}

/-- The lexer stands at the end of a text that it has read. -/
structure Over (lx : Lexer) : Prop where
  rest : lx.rest = []
  brackets : lx.brackets = []
  verbatim : lx.verbatim = .off

/-- Behind the end marker a text is read. -/
lemma over_of_end (read : lx.next options = (.ok token, last)) (kind : token.kind = .endMarker) :
    last.Over := by
  obtain ⟨mid, scanned, rfl⟩ := next_ok read
  obtain ⟨gap, taken, more⟩ := scan_taken scanned
  refine ⟨by rw [trackTriggers_rest, more.spelled.ends kind], ?_, trackTriggers_off (by simp [kind])⟩
  rw [(Plain.of_end scanned kind).scan, ordinary_eq] at scanned
  have closed : lx.plain.brackets = [] := (symbol_at_end scanned kind).2
  have unnested : mid.brackets.map Prod.fst = lx.brackets.map Prod.fst := by
    rw [more.nesting, kind]
    rfl
  rw [show lx.brackets = [] from plain_brackets.symm.trans closed] at unnested
  rw [trackTriggers_brackets, List.map_eq_nil_iff.1 unnested]

/-- There, nothing comes up but end markers. -/
lemma Over.next (ended : lx.Over) (options : Options) :
    ∃ marker, (lx.next options).1 = .ok marker ∧ marker.kind = .endMarker ∧
      marker.span = ⟨lx.location, lx.location⟩ := by
  have nothing : lx.gapAhead options = ([], []) := by
    rw [gapAhead, ended.rest]
    rfl
  have closed : (lx.move [] []).brackets = [] := ended.brackets
  rw [Lexer.next, scan_ordinary (by simp [ended.verbatim]), ordinary_eq, nothing, symbol_end rfl,
    atEnd_eq closed]
  exact ⟨_, rfl, rfl, rfl⟩

end Lexer

/-- A scanner, and whether it has given the end marker. -/
structure Supply where
  scanner : Scanner
  done : Bool

namespace Supply

/-- A text of which nothing has been read. -/
def ofText (source : String) : Supply where
  scanner := .ofText source
  done := false

/-- Whether the reading is that of an end marker. -/
def isEnd : Except LexError Token → Bool
  | .ok token => token.kind = .endMarker
  | .error _ => false

/-- Draws the next token, or an error. -/
inductive Next (options : Options) (t : Supply) : Except LexError Token → Supply → Prop
  | mk {result s} :
    t.scanner.Reading options result s →
    Next options t result ⟨s, t.done || isEnd result⟩

/-- The supplies that any number of draws lead to, whatever was drawn. -/
inductive Reached (options : Options) (source : String) : Supply → Prop
  | start :
    Reached options source (ofText source)
  | next {t t' result} :
    Reached options source t →
    t.Next options result t' →
    Reached options source t'

/-- The tokens up to the end marker, or up to an error. -/
inductive Collects (options : Options) : Supply → List Token → Option LexError → Prop
  | ends {t marker t'} :
    t.Next options (.ok marker) t' →
    marker.kind = .endMarker →
    Collects options t [marker] none
  | fails {t error t'} :
    t.Next options (.error error) t' →
    Collects options t [] (some error)
  | token {t token t' tokens failure} :
    t.Next options (.ok token) t' →
    token.kind ≠ .endMarker →
    Collects options t' tokens failure →
    Collects options t (token :: tokens) failure

/-- The next item: there is none once the end marker was given, and none behind an error. -/
inductive Item (options : Options) (t : Supply) : Option (Except LexError Token) → Supply → Prop
  | none :
    t.done →
    Item options t none t
  | token {token t'} :
    t.done = false →
    t.Next options (.ok token) t' →
    Item options t (some (.ok token)) t'
  | error {error t'} :
    t.done = false →
    t.Next options (.error error) t' →
    Item options t (some (.error error)) { t' with done := true }

/-- The items until there is none. -/
inductive Items (options : Options) : Supply → List (Except LexError Token) → Supply → Prop
  | nil {t last} :
    t.Item options none last →
    Items options t [] last
  | cons {t item t' items last} :
    t.Item options (some item) t' →
    Items options t' items last →
    Items options t (item :: items) last

/-- What has been collected, if no error was met. -/
def outcome (tokens : List Token) : Option LexError → Except LexError (List Token)
  | none => .ok tokens
  | some error => .error error

/-- What has been collected, and the error that was met, one by one. -/
def listed (tokens : List Token) (failure : Option LexError) : List (Except LexError Token) :=
  tokens.map .ok ++ failure.toList.map .error

variable {options : Options} {source : String} {t t' t'' last last' : Supply} {lx : Lexer}
  {result result' : Except LexError Token} {tokens tokens' : List Token}
  {failure failure' : Option LexError}

section Unique

/-- A draw has one result. -/
lemma Next.unique (first : t.Next options result t') (second : t.Next options result' t'') :
    result = result' ∧ t' = t'' := by
  obtain ⟨read⟩ := first
  obtain ⟨read'⟩ := second
  obtain ⟨rfl, rfl⟩ := read.unique read'
  exact ⟨rfl, rfl⟩

/-- To collect has one result. -/
lemma Collects.unique (first : t.Collects options tokens failure)
    (second : t.Collects options tokens' failure') : tokens = tokens' ∧ failure = failure' := by
  induction first generalizing tokens' with
  | ends next kind =>
    cases second with
    | ends next' =>
      cases (next.unique next').1
      exact ⟨rfl, rfl⟩
    | fails next' => cases (next.unique next').1
    | token next' inner =>
      cases (next.unique next').1
      exact absurd kind inner
  | fails next =>
    cases second with
    | fails next' =>
      cases (next.unique next').1
      exact ⟨rfl, rfl⟩
    | ends next' | token next' => cases (next.unique next').1
  | token next inner more ih =>
    cases second with
    | ends next' kind =>
      cases (next.unique next').1
      exact absurd kind inner
    | fails next' => cases (next.unique next').1
    | token next' _ more' =>
      obtain ⟨same, rfl⟩ := next.unique next'
      cases same
      obtain ⟨rfl, rfl⟩ := ih more'
      exact ⟨rfl, rfl⟩

variable {item item' : Option (Except LexError Token)} {values values' : List (Except LexError Token)}

/-- The next item is one. -/
lemma Item.unique (first : t.Item options item t') (second : t.Item options item' t'') :
    item = item' ∧ t' = t'' := by
  cases first with
  | none done =>
    cases second with
    | none => exact ⟨rfl, rfl⟩
    | token fresh | error fresh => simp [done] at fresh
  | token fresh next =>
    cases second with
    | none done => simp [done] at fresh
    | token _ next' =>
      obtain ⟨same, rfl⟩ := next.unique next'
      exact ⟨congrArg some same, rfl⟩
    | error _ next' => cases (next.unique next').1
  | error fresh next =>
    cases second with
    | none done => simp [done] at fresh
    | token _ next' => cases (next.unique next').1
    | error _ next' =>
      obtain ⟨same, rfl⟩ := next.unique next'
      exact ⟨congrArg some same, rfl⟩

/-- So are the items until there is none. -/
lemma Items.unique (first : t.Items options values last) (second : t.Items options values' last') :
    values = values' ∧ last = last' := by
  induction first generalizing values' with
  | nil item =>
    cases second with
    | nil item' => exact ⟨rfl, (item.unique item').2⟩
    | cons item' => cases (item.unique item').1
  | cons item _ ih =>
    cases second with
    | nil item' => cases (item.unique item').1
    | cons item' more' =>
      obtain ⟨same, rfl⟩ := item.unique item'
      cases same
      obtain ⟨rfl, rfl⟩ := ih more'
      exact ⟨rfl, rfl⟩

end Unique

/-- The supply has read the text `front`, and the lexer stands where it does. -/
structure Follows (source : String) (front : List Char) (lx : Lexer) (t : Supply) : Prop where
  stands : t.scanner.Stands lx
  whole : t.scanner.source = source.toList
  text : source.toList = front ++ lx.rest
  location : lx.location = .behind front
  ended : t.done → lx.Over

variable {front : List Char}

/-- A supply follows the lexer from the start. -/
lemma ofText_follows (source : String) : Follows source [] (.ofText source) (ofText source) where
  stands := Scanner.ofText_stands source
  whole := rfl
  text := rfl
  location := rfl
  ended := nofun

namespace Follows

/-- A supply stands behind the text that the lexer has read. -/
lemma position (follows : Follows source front lx t) : t.scanner.position = utf8Len front := by
  obtain ⟨front', here, position, -⟩ := follows.stands.text
  rw [follows.whole, follows.text] at here
  rw [position, List.append_cancel_right here]

/-- A token or an error is drawn, which is what the lexer reads. -/
lemma draw (options : Options) (follows : Follows source front lx t) :
    ∃ t' text, t.Next options (lx.next options).1 t' ∧ lx.rest = text ++ (lx.next options).2.rest ∧
      Follows source (front ++ text) (lx.next options).2 t' ∧
      t'.done = (t.done || isEnd (lx.next options).1) := by
  obtain ⟨s, read, arrived⟩ := follows.stands.reading options
  obtain ⟨text, rest, location⟩ := lx.next_moves options
  refine ⟨_, text, ⟨read⟩, rest, ?_, rfl⟩
  refine ⟨arrived, read.source.trans follows.whole, ?_, ?_, ?_⟩
  · rw [follows.text, rest, List.append_assoc]
  · rw [location, follows.location, ← Location.after_origin, ← Location.after_append,
      Location.after_origin]
  · have marked {marker : Token} (kind : marker.kind = .endMarker)
        (read : (lx.next options).1 = .ok marker) : (lx.next options).2.Over :=
      Lexer.over_of_end (Prod.ext read rfl) kind
    intro done
    cases ended : t.done with
    | true =>
      obtain ⟨marker, again, kind, -⟩ := (follows.ended ended).next options
      exact marked kind again
    | false =>
      rw [ended, Bool.false_or] at done
      match read : (lx.next options).1 with
      | .ok marker =>
        rw [read] at done
        exact marked (by simpa [isEnd] using done) read
      | .error error =>
        rw [read] at done
        cases done

end Follows

/-- Every supply that is reached follows a lexer. -/
lemma Reached.follows (reached : Reached options source t) :
    ∃ front lx, Follows source front lx t := by
  induction reached with
  | start => exact ⟨_, _, ofText_follows source⟩
  | next _ next ih =>
    obtain ⟨front, lx, follows⟩ := ih
    obtain ⟨t', text, next', -, follows', -⟩ := follows.draw options
    obtain ⟨-, rfl⟩ := next.unique next'
    exact ⟨_, _, follows'⟩

/-- What the lexer reads up to its end marker, or up to its first fault, is collected. -/
lemma Follows.collects {behind : Lexer} (follows : Follows source front lx t)
    (reads : lx.Reads options tokens behind) (halts : behind.Halts options result) :
    ∃ more failure, t.Collects options (tokens ++ more) failure ∧
      listed (tokens ++ more) failure = tokens.map .ok ++ [result] ∧
      (tokens ++ more).length ≤ lx.rest.length + 1 := by
  induction reads generalizing front t with
  | @nil here =>
    obtain ⟨t', text, next, -⟩ := follows.draw options
    cases halts with
    | @ends marker _ read kind =>
      rw [read] at next
      exact ⟨[marker], none, .ends next kind, rfl, by simp⟩
    | fails read =>
      rw [read] at next
      exact ⟨[], some _, .fails next, rfl, Nat.zero_le _⟩
  | @cons here mid _ token tokens read inner shorter _ ih =>
    obtain ⟨t', text, next, -, follows', -⟩ := follows.draw options
    rw [read] at next follows'
    obtain ⟨more, failure, collects, same, short⟩ := ih follows' halts
    refine ⟨more, failure, .token next inner collects, ?_, ?_⟩
    · rw [listed] at same ⊢
      rw [List.cons_append, List.map_cons, List.cons_append, same, List.map_cons, List.cons_append]
    · rw [List.cons_append, List.length_cons]
      omega

/-- What is collected comes up item by item, and nothing behind it. -/
lemma Collects.items (collects : t.Collects options tokens failure) (fresh : t.done = false) :
    ∃ last, t.Items options (listed tokens failure) last ∧ last.done := by
  induction collects with
  | @ends t marker t' next kind =>
    have done : t'.done := by
      obtain ⟨read⟩ := next
      simp [isEnd, kind]
    exact ⟨t', .cons (.token fresh next) (.nil (.none done)), done⟩
  | @fails t error t' next =>
    exact ⟨_, .cons (.error fresh next) (.nil (.none rfl)), rfl⟩
  | @token t token t' tokens failure next inner _ ih =>
    have fresh' : t'.done = false := by
      obtain ⟨read⟩ := next
      simp [isEnd, fresh, inner]
    obtain ⟨last, items, done⟩ := ih fresh'
    exact ⟨last, .cons (.token fresh next) items, done⟩

/-- Where the token was drawn, a text was skipped that may be empty, and one was taken that is not:
the span of the token is that of the second. -/
def Takes (source : String) (t t' : Supply) (token : Token) : Prop :=
  ∃ front gap taken rest, source.toList = front ++ (gap ++ (taken ++ rest)) ∧ taken ≠ [] ∧
    t.scanner.position = utf8Len front ∧
    t'.scanner.position = utf8Len (front ++ (gap ++ taken)) ∧
    token.span = ⟨.behind (front ++ gap), .behind (front ++ (gap ++ taken))⟩

/-- A token that is not the end marker takes text. -/
lemma Follows.takes (follows : Follows source front lx t) {token : Token}
    (next : t.Next options (.ok token) t') (inner : token.kind ≠ .endMarker) :
    Takes source t t' token := by
  obtain ⟨t'', text, next', rest, follows', -⟩ := follows.draw options
  obtain ⟨read, rfl⟩ := next.unique next'
  obtain ⟨mid, scanned, behind⟩ := Lexer.next_ok (Prod.ext read.symm rfl)
  obtain ⟨gap, taken, more⟩ := Lexer.scan_taken scanned
  have left : (lx.next options).2.rest = mid.rest :=
    (congrArg Lexer.rest behind).trans Lexer.trackTriggers_rest
  have moved (text : List Char) : lx.location.after text = .behind (front ++ text) := by
    rw [follows.location, ← Location.after_origin, ← Location.after_append, Location.after_origin]
  obtain rfl : text = gap ++ taken := by
    rw [left, more.rest, ← List.append_assoc] at rest
    exact (List.append_cancel_right rest).symm
  refine ⟨front, gap, taken, mid.rest, by rw [follows.text, more.rest], more.spelled.ne_nil inner,
    follows.position, follows'.position, ?_⟩
  have start : token.span.start = .behind (front ++ gap) := more.start.trans (moved gap)
  have stop : token.span.stop = .behind (front ++ (gap ++ taken)) :=
    (more.stop.trans more.location).trans (moved _)
  rw [← start, ← stop]

/-- At the end there are only end markers, and nothing moves. -/
lemma Follows.stays (follows : Follows source front lx t) (done : t.done)
    (next : t.Next options result t') :
    ∃ marker, result = .ok marker ∧ marker.kind = .endMarker ∧
      marker.span = ⟨t.scanner.location, t.scanner.location⟩ ∧
      t'.scanner.position = t.scanner.position ∧ t'.scanner.location = t.scanner.location ∧
      t'.done := by
  obtain ⟨t'', text, next', rest, follows', done'⟩ := follows.draw options
  obtain ⟨rfl, rfl⟩ := next.unique next'
  have ended := follows.ended done
  obtain ⟨marker, read, kind, span⟩ := ended.next options
  obtain ⟨rfl, -⟩ := List.append_eq_nil_iff.1 (rest.symm.trans ended.rest)
  rw [List.append_nil] at follows'
  refine ⟨marker, read, kind, ?_, ?_, ?_, by rw [done', done, Bool.true_or]⟩
  · rw [span, follows.stands.location]
  · rw [follows'.position, follows.position]
  · rw [follows'.stands.location, follows.stands.location, follows'.location, follows.location]

/-- The end of the items is final. -/
lemma Items.ends (items : t.Items options values last) : last.Item options none last := by
  induction items with
  | nil item =>
    cases item with
    | none done => exact .none done
  | cons _ _ ih => exact ih

/-- From the start of a text, what is collected are the tokens of the text, and what comes up one by
one are its readings. -/
lemma ofText_collects (options : Options) (source : String) :
    ∃ tokens failure, (ofText source).Collects options tokens failure ∧
      tokenize options source = outcome tokens failure ∧
      readings options source = listed tokens failure := by
  obtain ⟨tokens, behind, result, reads, halts⟩ := Lexer.reads_through options (.ofText source)
  obtain ⟨more, failure, collects, same, -⟩ := (ofText_follows source).collects reads halts
  have listing : Scriptlet.readings options source = listed (tokens ++ more) failure :=
    (reads.readings_halts halts (Nat.lt_succ_self _)).trans same.symm
  refine ⟨_, failure, collects, ?_, listing⟩
  rw [tokenize, listing]
  cases failure with
  | none => simpa [listed, outcome] using mapM_ok (tokens ++ more)
  | some error => exact mapM_error ..

/-- A supply always makes progress, wherever any number of draws has led it, those that gave an error
or the end marker among them. One more draw ends, in one way; it does not move back, and gives an
error, the end marker, or a token that takes text. Once the end marker was given, there are only end
markers, all at the same place. Collecting tokens ends, with at most one for each character that is
left and the end marker. Unless the end marker was given before, the items that come up are what is
collected, with the error that is met; then there is none, again and again. And from the start of a
text, these are the tokens and the readings of the text. -/
theorem always_progresses (reached : Reached options source t) :
    (∃ result t', t.Next options result t' ∧
      (∀ result' t'', t.Next options result' t'' → result' = result ∧ t'' = t') ∧
      t.scanner.position ≤ t'.scanner.position ∧
      ((∃ error, result = .error error) ∨
        ∃ token, result = .ok token ∧ (token.kind = .endMarker ∨ Takes source t t' token)) ∧
      (t.done → ∃ marker, result = .ok marker ∧ marker.kind = .endMarker ∧
        marker.span = ⟨t.scanner.location, t.scanner.location⟩ ∧
        t'.scanner.position = t.scanner.position ∧ t'.scanner.location = t.scanner.location ∧
        t'.done)) ∧
    ∃ tokens failure, t.Collects options tokens failure ∧
      (∀ tokens' failure', t.Collects options tokens' failure' →
        tokens' = tokens ∧ failure' = failure) ∧
      (∃ front left, source.toList = front ++ left ∧ t.scanner.position = utf8Len front ∧
        tokens.length ≤ left.length + 1) ∧
      (∃ last, t.Items options (if t.done then [] else listed tokens failure) last ∧
        (∀ values last', t.Items options values last' →
          values = (if t.done then [] else listed tokens failure) ∧ last' = last) ∧
        ∀ item last', last.Item options item last' → item = none ∧ last' = last) ∧
      (t = ofText source →
        tokenize options source = outcome tokens failure ∧
          readings options source = listed tokens failure) := by
  obtain ⟨front, lx, follows⟩ := reached.follows
  refine ⟨?_, ?_⟩
  · obtain ⟨t', text, next, -, follows', -⟩ := follows.draw options
    refine ⟨_, t', next, fun _ _ other => other.unique next, ?_, ?_, fun done =>
      follows.stays done next⟩
    · rw [follows.position, follows'.position, String.utf8Len_append]
      exact Nat.le_add_right ..
    · match read : (lx.next options).1 with
      | .error error => exact .inl ⟨error, rfl⟩
      | .ok token =>
        rw [read] at next
        refine .inr ⟨token, rfl, ?_⟩
        by_cases kind : token.kind = .endMarker
        · exact .inl kind
        · exact .inr (follows.takes next kind)
  · obtain ⟨tokens, behind, result, reads, halts⟩ := Lexer.reads_through options lx
    obtain ⟨more, failure, collects, same, short⟩ := follows.collects reads halts
    refine ⟨tokens ++ more, failure, collects, fun _ _ other => other.unique collects,
      ⟨front, lx.rest, follows.text, follows.position, short⟩, ?_, ?_⟩
    · obtain ⟨last, items⟩ : ∃ last,
          t.Items options (if t.done then [] else listed (tokens ++ more) failure) last := by
        cases done : t.done with
        | true => exact ⟨t, .nil (.none done)⟩
        | false =>
          obtain ⟨last, items, -⟩ := collects.items done
          exact ⟨last, items⟩
      exact ⟨last, items, fun _ _ other => other.unique items, fun _ _ other =>
        other.unique items.ends⟩
    · rintro rfl
      obtain ⟨tokens', failure', collects', same⟩ := ofText_collects options source
      obtain ⟨rfl, rfl⟩ := collects.unique collects'
      exact same

/-- Behind an error there can be more to read: it was at the parenthesis that has been given up. -/
theorem progresses_behind_error :
    ∃ s t t', Reached {} "\x7b(\x7d" s ∧
      s.Next {} (.error ⟨.mismatched .brace .paren ⟨0, 1⟩, ⟨0, 2⟩⟩) t ∧
      t.Next {} (.ok ⟨.closeBrace, "\x7d", ⟨⟨0, 2⟩, ⟨0, 3⟩⟩, false⟩) t' ∧
      t.scanner.position ≤ t'.scanner.position ∧
      ∃ tokens failure, t.Collects {} tokens failure := by
  obtain ⟨r, _, first, -, follows, -⟩ := (ofText_follows "\x7b(\x7d").draw {}
  obtain ⟨s, _, second, -, follows, -⟩ := follows.draw {}
  obtain ⟨t, _, third, -, follows, -⟩ := follows.draw {}
  obtain ⟨t', _, fourth, -⟩ := follows.draw {}
  obtain ⟨⟨result, behind, next, unique, onward, -⟩, tokens, failure, collects, -⟩ :=
    always_progresses (.next (.next (.next .start first) second) third)
  obtain ⟨-, rfl⟩ := fourth.unique next
  exact ⟨s, t, t', .next (.next .start first) second, third, fourth, onward, tokens, failure, collects⟩

end Supply

end Scriptlet
