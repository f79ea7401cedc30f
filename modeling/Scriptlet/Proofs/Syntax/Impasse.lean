import Scriptlet.Proofs.Syntax.Failures
import Scriptlet.Proofs.Syntax.Neighbours
import Scriptlet.Proofs.Syntax.Soundness
import Scriptlet.Proofs.Syntax.Unambiguous

/-!
# Where words cannot go on

Where a rule fails, the tokens in front of the error are the beginning of something that is derived
from its symbol, and nothing that is derived from it goes on with the next token (`Impasse`). The one
is shown by a derivation made up for the purpose, the other by the derivations being unique.
-/

namespace Scriptlet.Grammar

open Rule

/-- Nothing that is derived from the symbol goes on behind the tokens with the first of the rest. -/
def Blocked (symbol : Symbol) (before rest : List Token) : Prop :=
  ∀ (d : Derivation symbol) (next rest' : List Token), d.Proper next → symbol.Closed next →
    rest'.head? = rest.head? → d.tokens ++ next ≠ before ++ rest'

/-- Something that is derived from the symbol begins with the tokens. -/
def Completable (symbol : Symbol) (before : List Token) : Prop :=
  ∃ (d : Derivation symbol) (more next : List Token), d.tokens = before ++ more ∧ d.Proper next

/-- What is derived from the symbol may begin with these tokens, but cannot go on with the first of
the rest. -/
structure Impasse (symbol : Symbol) (before rest : List Token) : Prop where
  taken : before ≠ []
  begins : symbol.Begins before
  blocked : Blocked symbol before rest
  completable : Completable symbol before

/-- There is an impasse at the place of the error. -/
def Stuck (symbol : Symbol) (tokens : List Token) (error : ParseError) : Prop :=
  ∃ before rest, tokens = before ++ rest ∧ error.location = here rest ∧ Impasse symbol before rest

/-- The rule reads the symbol, is absent only where the symbol does not begin and, on fewer tokens
than these, fails only at impasses. -/
structure Guided (symbol : Symbol) (most : Nat) (rule : Rule symbol.Value) : Prop where
  reads : Reads symbol rule
  absent : ∀ ⦃tokens⦄, rule tokens = .absent → ¬ symbol.Begins tokens
  fails : ∀ ⦃tokens error⦄, tokens.length < most → rule tokens = .failed error →
    Stuck symbol tokens error

variable {symbol : Symbol} {most : Nat} {tokens before rest next more : List Token}
  {error : ParseError}

/-- A token made up to complete something. -/
def filling (kind : TokenKind) (spaced : Bool) : Token :=
  ⟨kind, "", .origin, spaced⟩

/-- An argument made up to complete something. -/
def filler (spaced : Bool) : Derivation .argument :=
  .argument (.plain (.literal (filling .literal spaced))) .nil

/-- The made up argument may stand in front of what does not go on with it. -/
lemma filler_proper {spaced : Bool} (apart : Apart next) : (filler spaced).Proper next :=
  ⟨⟨trivial, apart⟩, ⟨⟨trivial, trivial⟩, rfl, trivial⟩, trivial, trivial⟩

/-- A statement made up to complete something. -/
def filledCommand : Derivation .statement :=
  .command (filler true) .nil

/-- The made up statement may stand in front of what ends a command. -/
lemma filledCommand_proper (ends : EndsCommand next) : filledCommand.Proper next :=
  ⟨⟨ends, trivial⟩, filler_proper ends.apart, trivial, trivial⟩

/-- Nothing goes on with no tokens. -/
lemma apart_nil : Apart [] :=
  And.left

/-- A made up token that starts no piece goes on with no argument. -/
lemma apart_filling {kind : TokenKind} (other : kind ∉ pieceKinds) {spaced : Bool} :
    Apart (filling kind spaced :: next) :=
  fun added => other added.2

/-- A made up end marker ends a command. -/
lemma ends_filling {spaced : Bool} : EndsCommand (filling .endMarker spaced :: next) :=
  by simp [EndsCommand, StartsWith, filling]

/-- What is in front of one continuation is in front of another. -/
lemma head_of_taken (taken : before ≠ []) (rest next : List Token) :
    (before ++ next).head? = (before ++ rest).head? := by
  cases before with
  | nil => exact absurd rfl taken
  | cons t before => rfl

/-- Tokens that start differently differ. -/
lemma starts_ne {kinds others : List TokenKind} {tokens tokens' : List Token}
    (starts : StartsWith kinds tokens) (starts' : StartsWith others tokens')
    (apart : ∀ kind ∈ kinds, kind ∉ others) : tokens ≠ tokens' := by
  rintro rfl
  exact starts.apart apart starts'

namespace Derivation

/-- A word is proper in front of everything that does not go on with it. -/
lemma Proper.word {d : Derivation symbol} (proper : d.Proper rest) (word : ¬ symbol.Stated)
    (apart : Apart next) : d.Proper next :=
  proper.behind (fun _ => apart) fun stated => absurd stated word

/-- A derivation of the tokens that were read is the one that was found. -/
lemma agree {d d' : Derivation symbol} {rest' next' : List Token}
    (proper : d.Proper (before ++ rest)) (proper' : d'.Proper next')
    (closed : symbol.Closed (before ++ rest')) (closed' : symbol.Closed next')
    (alike : rest'.head? = rest.head?)
    (same : d'.tokens ++ next' = d.tokens ++ (before ++ rest')) :
    d' = d ∧ next' = before ++ rest' :=
  d'.unique d proper' (proper.of_head (head_append alike before)) closed' closed same

end Derivation

section Repetition

variable {rule : Rule symbol.Value}

/-- A repetition ends where its rule is absent. -/
lemma Guided.many_done (guided : Guided symbol most rule) (nonempty : ¬ symbol.Begins [])
    {values : List symbol.Value} (done : many rule tokens = .done values rest) :
    ∃ d : Derivation (.many symbol), d.Proper rest ∧ tokens = d.tokens ++ rest ∧
      ¬ symbol.Begins rest := by
  have rounds := many_repeats (guided.reads.consumes nonempty) done
  obtain ⟨d, proper, split, -⟩ := guided.reads.repeats rounds
  refine ⟨d, proper, split, ?_⟩
  obtain rfl | absent := rounds.ends
  · exact nonempty
  · exact guided.absent absent

/-- A repetition fails where a round does. -/
lemma Guided.many_fails (guided : Guided symbol most rule) (nonempty : ¬ symbol.Begins [])
    (short : tokens.length < most) (failed : many rule tokens = .failed error) :
    Stuck (.many symbol) tokens error := by
  have breaks := many_eq_failed failed
  clear failed
  induction breaks with
  | now failed =>
    obtain ⟨before, rest, rfl, place, impasse⟩ := guided.fails short failed
    refine ⟨before, rest, rfl, place, impasse.taken, trivial, ?_, ?_⟩
    · intro d next rest' proper closed alike same
      cases d with
      | nil =>
        -- a repetition that ends in front of these tokens would leave a round out
        obtain rfl : next = before ++ rest' := same
        exact closed (impasse.begins.append rest')
      | cons first later =>
        rw [Derivation.tokens, List.append_assoc] at same
        exact impasse.blocked first _ rest' proper.2.1 (Symbol.closed_of_not_begins closed _) alike
          same
    · obtain ⟨d, more, next, split, proper⟩ := impasse.completable
      exact ⟨.cons d .nil, more, next, by simp [split], ⟨trivial, trivial⟩, proper, trivial, trivial⟩
  | @later tokens middle value done _ ih =>
    obtain ⟨first, properFirst, rfl, -⟩ := guided.reads done
    have taken := first.taken properFirst nonempty
    have shorter : middle.length < most := by
      rw [List.length_append] at short
      omega
    obtain ⟨before, rest, rfl, place, impasse⟩ := ih shorter
    refine ⟨first.tokens ++ before, rest, by simp, place, by simp [taken], trivial, ?_, ?_⟩
    · intro d next rest' proper closed alike same
      rw [List.append_assoc] at same
      cases d with
      | nil =>
        obtain rfl : next = first.tokens ++ (before ++ rest') := same
        exact closed ((first.begins properFirst).append _)
      | cons first' later =>
        rw [Derivation.tokens, List.append_assoc] at same
        obtain ⟨-, properFirst', properLater⟩ := proper
        -- the first round is the one that was done, and the others are blocked
        obtain ⟨rfl, behind⟩ := Derivation.agree properFirst properFirst'
          (Symbol.closed_of_not_begins closed _) (Symbol.closed_of_not_begins closed _) alike same
        exact impasse.blocked later next rest' properLater closed alike behind
    · obtain ⟨d, more, next, split, proper⟩ := impasse.completable
      refine ⟨.cons first d, more, next, by simp [split], ⟨trivial, trivial⟩, ?_, proper⟩
      rw [split, List.append_assoc]
      exact properFirst.of_head (head_of_taken impasse.taken rest _)

end Repetition

section Words

variable {name argument piece : Rule (Word Token)}

/-- Where arguments cannot go on: in one of them, or behind them in front of what does not end them.
In both cases they can be ended somewhere. -/
lemma Guided.arguments_fail {kinds : List TokenKind} (guided : Guided .argument most argument)
    (others : ∀ kind ∈ kinds, kind ∉ pieceKinds) (short : tokens.length < most)
    (failed : many argument tokens = .failed error ∨
      ∃ args rest, many argument tokens = .done args rest ∧ ¬ StartsWith kinds rest ∧
        error.location = here rest) :
    ∃ before rest, tokens = before ++ rest ∧ error.location = here rest ∧
      (∀ (args : Derivation (.many .argument)) (next rest' : List Token), args.Proper next →
        StartsWith kinds next → rest'.head? = rest.head? → args.tokens ++ next ≠ before ++ rest') ∧
      ∃ (args : Derivation (.many .argument)) (more : List Token), args.tokens = before ++ more ∧
        ∀ next, StartsWith kinds next →
          args.Proper next ∧ (Apart tokens → Apart (args.tokens ++ next)) := by
  have apart {next : List Token} (ends : StartsWith kinds next) : Apart next :=
    fun added => ends.apart others added.2
  obtain failed | ⟨_, rest, listed, unended, place⟩ := failed
  · obtain ⟨before, rest, rfl, place, impasse⟩ := guided.many_fails id short failed
    refine ⟨before, rest, rfl, place, ?_, ?_⟩
    · intro args next rest' proper ends alike
      exact impasse.blocked args next rest' proper (ends.apart others) alike
    · obtain ⟨args, more, last, split, proper⟩ := impasse.completable
      refine ⟨args, more, split, fun next ends => ⟨proper.word id (apart ends), ?_⟩⟩
      rw [split, List.append_assoc]
      exact (apart_of_head (head_of_taken impasse.taken rest _)).2
  · obtain ⟨args, proper, rfl, ended⟩ := guided.many_done id listed
    refine ⟨args.tokens, rest, rfl, place, ?_, args, [], by simp, fun next ends =>
      ⟨proper.word id (apart ends), Apart.append fun _ => apart ends⟩⟩
    intro args' next rest' proper' ends alike same
    have last : ¬ Symbol.argument.Begins rest' := fun begins =>
      ended ((startsWith_of_head alike).1 begins)
    obtain ⟨-, rfl⟩ := args'.unique args proper' (proper.of_head alike) (ends.apart others) last same
    exact unended ((startsWith_of_head alike).1 ends)

/-- Where a call behind a sigil cannot go on. -/
lemma callTail_fails (guided : Guided .argument most argument) (short : tokens.length ≤ most)
    (failed : callTail argument tokens = .failed error) : Stuck .callTail tokens error := by
  obtain ⟨opener, middle, rfl, opens, near, cases⟩ := callTail_eq_failed failed
  have shorter : middle.length < most := short
  have begins (before : List Token) : Symbol.callTail.Begins (opener :: before) :=
    ⟨near, startsWith_cons opens⟩
  have closing (name : Derivation .argument) (args : Derivation (.many .argument))
      (proper : name.Proper (args.tokens ++ [filling .closeParen false]))
      (properArgs : args.Proper [filling .closeParen false]) :
      (Derivation.callTail opener name args (filling .closeParen false)).Proper [] :=
    ⟨⟨⟨opens, near, rfl⟩, trivial⟩, proper, properArgs⟩
  have closingName {name : Derivation .argument} {next : List Token} (proper : name.Proper next) :=
    closing name .nil (proper.word id (apart_filling (by decide))) ⟨trivial, trivial⟩
  -- it fails in the name, where the name should be, or among the arguments
  obtain failed | ⟨absent, place⟩ | ⟨_, _, named, unlisted⟩ := cases
  · obtain ⟨before, rest, rfl, place, impasse⟩ := guided.fails shorter failed
    refine ⟨opener :: before, rest, rfl, place, List.cons_ne_nil _ _, begins _, ?_, ?_⟩
    · rintro (_ | _) next rest' proper - alike same
      rename_i name args closer
      refine impasse.blocked name (args.tokens ++ closer :: next) rest' proper.2.1 trivial alike ?_
      simpa using (List.cons.inj same).2
    · obtain ⟨name, more, next, split, proper⟩ := impasse.completable
      exact ⟨_, more ++ [filling .closeParen false], [], by simp [split], closingName proper⟩
  · refine ⟨[opener], middle, rfl, place, List.cons_ne_nil _ _, begins _, ?_, ?_⟩
    · rintro (_ | _) next rest' proper - alike same
      rename_i name args closer
      have behind : name.tokens ++ (args.tokens ++ closer :: next) = rest' := by
        simpa using (List.cons.inj same).2
      have starts : StartsWith pieceKinds rest' :=
        behind ▸ StartsWith.append (name.begins proper.2.1) _
      exact guided.absent absent ((startsWith_of_head alike).1 starts)
    · have proper : (filler false).Proper [] := filler_proper apart_nil
      exact ⟨_, [filling .literal false, filling .closeParen false], [], rfl, closingName proper⟩
  · obtain ⟨name, properName, rfl, -⟩ := guided.reads named
    rw [List.length_append] at shorter
    obtain ⟨before, rest, rfl, place, blocked, args, more, split, ended⟩ :=
      guided.arguments_fail (by decide) (by omega) unlisted
    obtain ⟨properArgs, apart⟩ := ended [filling .closeParen false] (startsWith_cons rfl)
    refine ⟨opener :: (name.tokens ++ before), rest, by simp, place, List.cons_ne_nil _ _, begins _,
      ?_, ?_⟩
    · rintro (_ | _) next rest' proper - alike same
      rename_i name' args' closer'
      obtain ⟨⟨⟨-, -, closes⟩, -⟩, properName', properArgs'⟩ := proper
      have behind : name'.tokens ++ (args'.tokens ++ closer' :: next) =
          name.tokens ++ (before ++ rest') := by simpa using (List.cons.inj same).2
      obtain ⟨-, behind⟩ := Derivation.agree properName properName' trivial trivial alike behind
      exact blocked args' _ rest' properArgs' (startsWith_cons closes) alike behind
    · exact ⟨_, more ++ [filling .closeParen false], [], by simp [split],
        closing name args (properName.behind apart nofun) properArgs⟩

/-- The rule of the symbol is committed to a call or a name behind a sigil of this kind. -/
structure Sigil (symbol : Symbol) (kind : TokenKind) : Prop where
  begins : ∀ {sigil : Token} {tokens : List Token}, sigil.kind = kind →
    symbol.Begins (sigil :: tokens)
  inverts : ∀ {d : Derivation symbol} {next more : List Token} {sigil : Token}, d.Proper next →
    sigil.kind = kind → d.tokens ++ next = sigil :: more →
    (∃ tail : Derivation .callTail, tail.Proper next ∧ tail.tokens ++ next = more) ∨
      ∃ name : Derivation .name, Adjacent name.tokens ∧ name.Proper next ∧
        name.tokens ++ next = more
  call : ∀ (sigil : Token) (tail : Derivation .callTail) (next : List Token), sigil.kind = kind →
    tail.Proper next → ∃ d : Derivation symbol, d.tokens = sigil :: tail.tokens ∧ d.Proper next
  refers : ∀ (sigil : Token) (name : Derivation .name) (next : List Token), sigil.kind = kind →
    Adjacent name.tokens → name.Proper next →
    ∃ d : Derivation symbol, d.tokens = sigil :: name.tokens ∧ d.Proper next

/-- A dollar commits a name. -/
lemma dollar_sigil : Sigil .name .dollar where
  begins := by
    intro sigil tokens kind
    have starts : StartsWith [.dollar] (sigil :: tokens) := startsWith_cons kind
    exact starts.mono (by decide)
  inverts := by
    rintro (_ | _) next more sigil proper kind same
    all_goals obtain ⟨rfl, behind⟩ := List.cons.inj same
    case literal => exact absurd kind (Derivation.literal_ne_dollar proper.1)
    case substitution tail => exact .inl ⟨tail, proper.2, behind⟩
    case reference name => exact .inr ⟨name, proper.1.1.2, proper.2, behind⟩
  call sigil tail _ kind proper := ⟨.substitution sigil tail, rfl, ⟨kind, trivial⟩, proper⟩
  refers sigil name _ kind near proper :=
    ⟨.reference sigil name, rfl, ⟨⟨kind, near⟩, trivial⟩, proper⟩

/-- The sign of a vector expansion commits a piece. -/
lemma vector_sigil : Sigil .piece .vector where
  begins := by
    intro sigil tokens kind
    have starts : StartsWith [.vector] (sigil :: tokens) := startsWith_cons kind
    exact starts.mono (by decide)
  inverts := by
    rintro (_ | _) next more sigil proper kind same
    case plain name => exact absurd same.symm (Derivation.vector_ne_name kind proper.2)
    all_goals obtain ⟨rfl, behind⟩ := List.cons.inj same
    case vectorCall tail => exact .inl ⟨tail, proper.2, behind⟩
    case vectorReference name => exact .inr ⟨name, proper.1.1.2, proper.2, behind⟩
  call sigil tail _ kind proper := ⟨.vectorCall sigil tail, rfl, ⟨kind, trivial⟩, proper⟩
  refers sigil name _ kind near proper :=
    ⟨.vectorReference sigil name, rfl, ⟨⟨kind, near⟩, trivial⟩, proper⟩

/-- Where it cannot go on behind a sigil: in the call, in the name, or at once. -/
lemma Sigil.fails {kind : TokenKind} {sigil : Token} {middle : List Token}
    (form : Sigil symbol kind) (same : sigil.kind = kind) (named : Guided .name most name)
    (argued : Guided .argument most argument) (short : middle.length < most)
    (failed : callTail argument middle = .failed error ∨
      callTail argument middle = .absent ∧
        (Adjacent middle ∧ name middle = .failed error ∨
          Rule.adjacent name middle = .absent ∧ error.location = here middle)) :
    Stuck symbol (sigil :: middle) error := by
  -- calls and names start with different tokens, so a derivation has the part that failed
  obtain failed | ⟨noCall, ⟨near, failed⟩ | ⟨noName, place⟩⟩ := failed
  · obtain ⟨before, rest, rfl, place, impasse⟩ := callTail_fails argued short.le failed
    refine ⟨sigil :: before, rest, rfl, place, List.cons_ne_nil _ _, form.begins same, ?_, ?_⟩
    · intro d next rest' proper _ alike whole
      obtain ⟨tail, properTail, behind⟩ | ⟨name, -, properName, behind⟩ :=
        form.inverts proper same whole
      · exact impasse.blocked tail next rest' properTail trivial alike behind
      · exact starts_ne (StartsWith.append (name.begins properName) next)
          (impasse.begins.2.append rest') (by decide) behind
    · obtain ⟨tail, more, next, split, proper⟩ := impasse.completable
      obtain ⟨d, whole, proper⟩ := form.call sigil tail next same proper
      exact ⟨d, more, next, by simp [whole, split], proper⟩
  · obtain ⟨before, rest, rfl, place, impasse⟩ := named.fails short failed
    refine ⟨sigil :: before, rest, rfl, place, List.cons_ne_nil _ _, form.begins same, ?_, ?_⟩
    · intro d next rest' proper _ alike whole
      obtain ⟨tail, properTail, behind⟩ | ⟨name, -, properName, behind⟩ :=
        form.inverts proper same whole
      · exact starts_ne ((tail.begins properTail).2.append next)
          (StartsWith.append impasse.begins rest') (by decide) behind
      · exact impasse.blocked name next rest' properName trivial alike behind
    · obtain ⟨name, more, next, split, proper⟩ := impasse.completable
      have near : Adjacent name.tokens :=
        split ▸ (adjacent_of_append impasse.taken near).append more
      obtain ⟨d, whole, proper⟩ := form.refers sigil name next same near proper
      exact ⟨d, more, next, by simp [whole, split], proper⟩
  · refine ⟨[sigil], middle, rfl, place, List.cons_ne_nil _ _, form.begins same, ?_, ?_⟩
    · intro d next rest' proper _ alike whole
      obtain ⟨tail, properTail, behind⟩ | ⟨name, near, properName, behind⟩ :=
        form.inverts proper same whole
      · obtain rfl : tail.tokens ++ next = rest' := behind
        obtain ⟨near, starts⟩ := (tail.begins properTail).append next
        exact callTail_absent noCall
          ⟨(adjacent_of_head alike).1 near, (startsWith_of_head alike).1 starts⟩
      · obtain rfl : name.tokens ++ next = rest' := behind
        have starts := StartsWith.append (name.begins properName) next
        have near := (adjacent_of_head alike).1 (near.append next)
        exact named.absent (absent_of_adjacent near noName) ((startsWith_of_head alike).1 starts)
    · obtain ⟨d, whole, proper⟩ := form.refers sigil (.literal (filling .literal false)) [] same rfl
        ⟨rfl, trivial⟩
      exact ⟨d, [filling .literal false], [], whole, proper⟩

/-- Names are guided if the names and the arguments inside are. -/
lemma name_guided (named : Guided .name most name) (argued : Guided .argument most argument) :
    Guided .name (most + 1) (Grammar.name name argument) where
  reads := name_reads named.reads argued.reads
  absent _ absent := name_eq_absent.1 absent
  fails := by
    intro tokens error short failed
    obtain failed | ⟨-, failed⟩ := or_eq_failed.1 failed
    · exact absurd failed literal_ne_failed
    · obtain failed | ⟨absent, failed⟩ := or_eq_failed.1 failed
      · obtain ⟨sigil, middle, rfl, kind, failed⟩ := substitution_eq_failed failed
        exact dollar_sigil.fails kind named argued (Nat.lt_of_succ_lt_succ short) (.inl failed)
      · obtain ⟨sigil, middle, rfl, kind, failed⟩ := reference_eq_failed failed
        exact dollar_sigil.fails kind named argued (Nat.lt_of_succ_lt_succ short)
          (.inr ⟨substitution_absent kind absent, failed⟩)

/-- So are pieces. -/
lemma piece_guided (named : Guided .name most name) (argued : Guided .argument most argument) :
    Guided .piece (most + 1)
      ((vector name argument).or (Grammar.name name argument)) where
  reads := by
    intro tokens word rest done
    obtain done | ⟨-, done⟩ := or_eq_done.1 done
    · exact vector_reads named.reads argued.reads done
    · obtain ⟨name, proper, rfl, rfl⟩ := (name_guided named argued).reads done
      exact ⟨.plain name, ⟨⟨trivial, trivial⟩, proper⟩, rfl, rfl⟩
  absent := by
    intro tokens absent
    obtain ⟨noVector, noName⟩ := or_eq_absent.1 absent
    show ¬ StartsWith (nameKinds ++ [.vector]) tokens
    rw [startsWith_append_iff, not_or]
    exact ⟨name_eq_absent.1 noName, vector_eq_absent.1 noVector⟩
  fails := by
    intro tokens error short failed
    obtain failed | ⟨-, failed⟩ := or_eq_failed.1 failed
    · obtain ⟨sigil, middle, rfl, kind, failed⟩ := vector_eq_failed failed
      exact vector_sigil.fails kind named argued (Nat.lt_of_succ_lt_succ short) failed
    · obtain ⟨before, rest, rfl, place, impasse⟩ := (name_guided named argued).fails short failed
      refine ⟨before, rest, rfl, place, impasse.taken, impasse.begins.mono nameKinds_subset, ?_, ?_⟩
      · rintro (_ | _) next rest' proper - alike same
        case plain name => exact impasse.blocked name next rest' proper.2 trivial alike same
        case vectorCall =>
          exact starts_ne (startsWith_cons proper.1.1) (StartsWith.append impasse.begins rest')
            (by decide) same
        case vectorReference =>
          exact starts_ne (startsWith_cons proper.1.1.1) (StartsWith.append impasse.begins rest')
            (by decide) same
      · obtain ⟨name, more, next, split, proper⟩ := impasse.completable
        exact ⟨.plain name, more, next, split, ⟨trivial, trivial⟩, proper⟩

/-- Adjacent pieces are guided if pieces are. -/
lemma adjacent_guided (pieced : Guided .piece most piece) :
    Guided .adjacentPiece most (Rule.adjacent piece) where
  reads := adjacent_reads pieced.reads
  absent _ absent begins := pieced.absent (absent_of_adjacent begins.1 absent) begins.2
  fails := by
    intro tokens error short failed
    obtain ⟨near, failed⟩ := adjacent_eq_failed.1 failed
    obtain ⟨before, rest, rfl, place, impasse⟩ := pieced.fails short failed
    have near := adjacent_of_append impasse.taken near
    refine ⟨before, rest, rfl, place, impasse.taken, ⟨near, impasse.begins⟩, ?_, ?_⟩
    · rintro (_ | _) next rest' proper - alike same
      rename_i piece
      exact impasse.blocked piece next rest' proper.2 trivial alike same
    · obtain ⟨piece, more, next, split, proper⟩ := impasse.completable
      have near : Adjacent piece.tokens := split ▸ near.append more
      exact ⟨.adjacent piece, more, next, split, ⟨near, trivial⟩, proper⟩

/-- Arguments are guided if pieces are. -/
lemma argument_guided (pieced : Guided .piece most piece) :
    Guided .argument most (Grammar.argument piece) where
  reads := argument_reads pieced.reads fun absent => pieced.absent absent
  absent := by
    intro tokens absent
    obtain absent | ⟨_, _, -, absent⟩ := bind_eq_absent.1 absent
    · exact pieced.absent absent
    · obtain absent | ⟨_, _, -, absent⟩ := bind_eq_absent.1 absent
      · exact absurd absent many_ne_absent
      · cases absent
  fails := by
    intro tokens error short failed
    obtain failed | ⟨_, _, read, unglued⟩ := argument_eq_failed failed
    · obtain ⟨before, rest, rfl, place, impasse⟩ := pieced.fails short failed
      refine ⟨before, rest, rfl, place, impasse.taken, impasse.begins, ?_, ?_⟩
      · rintro (_ | _) next rest' proper - alike same
        rename_i first later
        rw [Derivation.tokens, List.append_assoc] at same
        exact impasse.blocked first _ rest' proper.2.1 trivial alike same
      · obtain ⟨first, more, next, split, proper⟩ := impasse.completable
        exact ⟨.argument first .nil, more, [], by simp [split], ⟨trivial, apart_nil⟩,
          proper.word id apart_nil, trivial, trivial⟩
    · obtain ⟨first, properFirst, rfl, -⟩ := pieced.reads read
      have starts := first.begins properFirst
      rw [List.length_append] at short
      obtain ⟨before, rest, rfl, place, impasse⟩ :=
        (adjacent_guided pieced).many_fails And.left (by omega) unglued
      refine ⟨first.tokens ++ before, rest, by simp, place, by simp [impasse.taken],
        StartsWith.append starts before, ?_, ?_⟩
      · rintro (_ | _) next rest' proper - alike same
        rename_i first' later
        obtain ⟨⟨-, whole⟩, properFirst', properLater⟩ := proper
        rw [Derivation.tokens, List.append_assoc, List.append_assoc] at same
        obtain ⟨-, behind⟩ := Derivation.agree properFirst properFirst' trivial trivial alike same
        -- behind a whole argument no piece is added
        exact impasse.blocked later next rest' properLater whole alike behind
      · obtain ⟨later, more, next, split, proper⟩ := impasse.completable
        refine ⟨.argument first later, more, [], by simp [split], ⟨trivial, apart_nil⟩, ?_,
          proper.word id apart_nil⟩
        rw [split, List.append_assoc]
        exact properFirst.of_head (head_of_taken impasse.taken rest _)

variable {limit : Nat}

/-- Words are read as they should, if there are more levels than tokens. -/
lemma words_guided (room : Nat) :
    Guided .name room (nameAt limit room) ∧ Guided .piece room (pieceAt limit room) := by
  induction room with
  | zero => exact ⟨⟨nofun, nofun, nofun⟩, ⟨nofun, nofun, nofun⟩⟩
  | succ room ih =>
    obtain ⟨named, pieced⟩ := ih
    exact ⟨name_guided named (argument_guided pieced), piece_guided named (argument_guided pieced)⟩

/-- Arguments are guided on as many tokens as there is room. -/
lemma argumentAt_guided (room : Nat) : Guided .argument room (argumentAt limit room) :=
  argument_guided (words_guided room).2

end Words

end Scriptlet.Grammar
