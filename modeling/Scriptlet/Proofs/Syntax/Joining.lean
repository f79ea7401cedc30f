import Scriptlet.Proofs.Lexer.Lines
import Scriptlet.Proofs.Syntax.Neighbours
import Scriptlet.Proofs.Syntax.Nesting
import Scriptlet.Proofs.Syntax.Relabelling

/-!
# Texts below each other

Two texts that can be parsed can be parsed below each other, if line feeds separate statements, and
the statements are those of the first text and those of the second (`Script.parse_lines`).
-/

namespace Scriptlet

open Grammar

/-- What of a token does not depend on where it stands. -/
def Token.bare (t : Token) : TokenKind × String :=
  (t.kind, t.lexeme)

/-- Tokens that differ only in their places have one kind. -/
lemma Token.bare_kind {t t' : Token} (same : t.bare = t'.bare) : t.kind = t'.kind :=
  (Prod.ext_iff.1 same).1

/-- And one lexeme. -/
lemma Token.bare_lexeme {t t' : Token} (same : t.bare = t'.bare) : t.lexeme = t'.lexeme :=
  (Prod.ext_iff.1 same).2

variable {options : Options} {tokens : List Token}

/-- The text ahead is split into these tokens, the end marker included. -/
inductive Lexer.Splits (options : Options) : Lexer → List Token → Prop
  | ends {lx last : Lexer} {marker : Token} :
    lx.next options = (.ok marker, last) →
    marker.kind = .endMarker →
    Splits options lx [marker]
  | more {lx mid : Lexer} {token : Token} {tokens : List Token} :
    lx.next options = (.ok token, mid) →
    token.kind ≠ .endMarker →
    Splits options mid tokens →
    Splits options lx (token :: tokens)

namespace Lexer

variable {lx lx' mid : Lexer} {front : List Token}

/-- Tokens that are read stand in front of those into which the rest is split. -/
lemma Reads.splits (reads : lx.Reads options front mid) (splits : mid.Splits options tokens) :
    lx.Splits options (front ++ tokens) := by
  induction reads with
  | nil => exact splits
  | cons read inner _ _ ih => exact .more read inner (ih splits)

/-- A text is split into tokens that are read and the end marker. -/
lemma Splits.reads (splits : lx.Splits options tokens) :
    ∃ front last marker, lx.Reads options front last ∧ last.Halts options (.ok marker) ∧
      tokens = front ++ [marker] := by
  induction splits with
  | ends read kind => exact ⟨[], _, _, .nil, .ends read kind, rfl⟩
  | more read inner _ ih =>
    obtain ⟨front, last, marker, reads, halts, rfl⟩ := ih
    exact ⟨_ :: front, last, marker, .cons read inner (next_shorter read inner) reads, halts, rfl⟩

/-- What a text is split into is what the tokenizer gives. -/
lemma Splits.tokenize {source : String} (splits : (ofText source).Splits options tokens) :
    tokenize options source = .ok tokens := by
  obtain ⟨front, last, marker, reads, halts, rfl⟩ := splits.reads
  exact tokenize_ends reads halts

/-- A text is split into the same tokens in another place. Whether the first one is spaced may
differ. -/
lemma Splits.displaced (splits : lx.Splits options tokens) (same : lx.Displaced lx') :
    ∃ tokens', lx'.Splits options tokens' ∧
      Alike Token.bare ((lx.offset == 0) = (lx'.offset == 0)) tokens tokens' := by
  induction splits generalizing lx' with
  | ends read kind =>
    obtain ⟨marker', last', read', sameKind, lexeme, spaced, -⟩ := same.read read
    exact ⟨[marker'], .ends read' (sameKind ▸ kind), .cons (Prod.ext sameKind lexeme) spaced .nil⟩
  | more read inner _ ih =>
    obtain ⟨token', mid', read', sameKind, lexeme, spaced, behind⟩ := same.read read
    obtain ⟨tokens', splits', alike⟩ := ih behind
    have inner' : token'.kind ≠ .endMarker := sameKind ▸ inner
    have later := alike.full (by simp [next_offset read inner, next_offset read' inner'])
    exact ⟨token' :: tokens', .more read' inner' splits',
      .cons (Prod.ext sameKind lexeme) spaced later⟩

end Lexer

/-- Where a text is put below another, a separator takes the place of the end marker of the first,
and behind it are the tokens of the second. -/
lemma tokenize_lines (newlines : options.newlineSeparates = true)
    (toLine : options.verbatimToEnd = false) {above below : String} {first second : List Token}
    (splitFirst : tokenize options above = .ok first)
    (splitSecond : tokenize options below = .ok second) :
    ∃ front marker separator later, first = front ++ [marker] ∧ separator.kind = .separator ∧
      Alike Token.bare False second later ∧
      tokenize options (above ++ "\n" ++ below) = .ok (front ++ separator :: later) := by
  obtain ⟨front, last, marker, _, reads, ends, kind, rfl⟩ := reads_of_tokenize splitFirst
  obtain ⟨inner, end', marker', _, reads', ends', kind', rfl⟩ := reads_of_tokenize splitSecond
  have feed : EndsLine ("\n" ++ below).toList := by
    rw [String.toList_append]
    simp [EndsLine]
  have longer := reads.extend toLine (.inr feed)
  obtain ⟨separator, fresh, read, separates, same⟩ := Lexer.next_feed newlines toLine ends kind below
  obtain ⟨later, splits, alike⟩ := (reads'.splits (.ends ends' kind')).displaced same
  have whole : (Lexer.ofText above).extend ("\n" ++ below).toList =
      .ofText (above ++ "\n" ++ below) := by
    rw [Lexer.ofText_extend, String.append_assoc]
  have feeds : ("\n" ++ below).toList = '\n' :: below.toList := by
    rw [String.toList_append]
    rfl
  rw [whole, feeds] at longer
  refine ⟨front, marker, separator, later, rfl, separates, alike.weaken False.elim, ?_⟩
  exact (longer.splits (.more read (by simp [separates]) splits)).tokenize

namespace Grammar

namespace Derivation

variable {symbol : Symbol} {next separators : List Token}

/-- One repetition behind another is a repetition. -/
lemma append (first second : Derivation (.many symbol))
    (properFirst : first.Proper (second.tokens ++ next)) (proper : second.Proper next) :
    ∃ d : Derivation (.many symbol), d.tokens = first.tokens ++ second.tokens ∧ d.Proper next ∧
      d.tree = first.tree ++ second.tree := by
  match first with
  | nil => exact ⟨second, rfl, proper, rfl⟩
  | cons head rest =>
    obtain ⟨lawful, properHead, properRest⟩ := properFirst
    obtain ⟨d, split, proper, trees⟩ := append rest second properRest proper
    refine ⟨cons head d, ?_, ⟨lawful, ?_, proper⟩, ?_⟩
    · rw [tokens, tokens, split, List.append_assoc]
    · rwa [split, List.append_assoc]
    · rw [tree, tree, trees, List.cons_append]

/-- Statements go on being statements behind separators. -/
lemma behind_separators (body : Derivation (.many .separated)) (trailing : List Token)
    (kinds : ∀ t ∈ separators, t.kind = .separator)
    (proper : (statements body trailing).Proper next) :
    ∃ (body' : Derivation (.many .separated)) (trailing' : List Token),
      body'.tokens ++ trailing' = separators ++ (body.tokens ++ trailing) ∧
      (statements body' trailing').Proper next ∧ body'.tree = body.tree := by
  obtain ⟨⟨trailed, -⟩, properBody⟩ := proper
  match body with
  | nil =>
    refine ⟨nil, separators ++ trailing, rfl, ⟨⟨?_, trivial⟩, trivial, trivial⟩, rfl⟩
    exact List.forall_mem_append.2 ⟨kinds, trailed⟩
  | cons (separated inner statement) rest =>
    obtain ⟨-, ⟨⟨separates, -⟩, properStatement⟩, properRest⟩ := properBody
    refine ⟨cons (separated (separators ++ inner) statement) rest, trailing, by simp,
      ⟨⟨trailed, trivial⟩, ⟨trivial, trivial⟩, ⟨⟨?_, trivial⟩, properStatement⟩, properRest⟩, rfl⟩
    exact List.forall_mem_append.2 ⟨kinds, separates⟩

/-- A script behind another, with a separator in place of the end marker of the first. -/
lemma join (first second : Derivation .script) (properFirst : first.Proper [])
    (proper : second.Proper []) {front : List Token} {marker separator : Token}
    (split : first.tokens = front ++ [marker]) (separates : separator.kind = .separator) :
    ∃ d : Derivation .script, d.tokens = front ++ separator :: second.tokens ∧ d.Proper [] ∧
      d.tree = first.tree ++ second.tree := by
  match first, second with
  | script (statements body trailing) marker', script (statements later ends) last =>
    obtain ⟨rfl, -⟩ := List.append_inj' split rfl
    obtain ⟨-, ⟨trailed, -⟩, properBody⟩ := properFirst
    obtain ⟨lawful, properLater⟩ := proper
    have kinds : ∀ t ∈ trailing ++ [separator], t.kind = .separator :=
      List.forall_mem_append.2 ⟨trailed, List.forall_mem_singleton.2 separates⟩
    obtain ⟨later', ends', same, ⟨lawful', properLater'⟩, tree⟩ :=
      behind_separators later ends kinds properLater
    have behind : later'.tokens ++ (ends' ++ [last]) =
        trailing ++ separator :: (later.tokens ++ ends ++ [last]) := by
      rw [← List.append_assoc, same]
      simp
    -- a separator ends the last command of the first text as the end marker did
    have ended : EndsCommand (later'.tokens ++ (ends' ++ [last])) := by
      rw [behind]
      cases trailing with
      | nil => exact (startsWith_cons separates).mono (by decide)
      | cons t trailing => exact (startsWith_cons (trailed t List.mem_cons_self)).mono (by decide)
    have properBody' : body.Proper (later'.tokens ++ (ends' ++ [last])) :=
      Proper.behind properBody (fun _ => ended.apart) fun _ _ => ended
    obtain ⟨all, split, properAll, trees⟩ := append body later' properBody' properLater'
    refine ⟨script (statements all ends') last, ?_, ⟨lawful, lawful', properAll⟩, ?_⟩
    · simp only [tokens, split, List.append_assoc, behind]
    · show all.tree = body.tree ++ later.tree
      rw [trees, tree]

end Derivation

end Grammar

/-- A map over statements is one over a front and over the rest. -/
lemma Statement.mapAll_append {α β : Type} (f : α → β) (first second : List (Statement α)) :
    Statement.mapAll f (first ++ second) =
      Statement.mapAll f first ++ Statement.mapAll f second := by
  induction first with
  | nil => rfl
  | cons s first ih => exact congrArg (s.map f :: ·) ih

/-- Parsing commutes with putting texts below each other: if line feeds separate statements and
verbatim text ends with its line, two texts that can be parsed can be parsed with a line feed between
them, and the statements are those of the first and those of the second, but for where their tokens
stand. -/
theorem Script.parse_lines (newlines : options.newlineSeparates = true)
    (toLine : options.verbatimToEnd = false) {limit : Nat} {above below : String}
    {first second : Script} (readFirst : Script.parse options limit above = .ok first)
    (readSecond : Script.parse options limit below = .ok second) :
    ∃ both, Script.parse options limit (above ++ "\n" ++ below) = .ok both ∧
      Statement.mapAll Token.bare both.body =
        Statement.mapAll Token.bare first.body ++ Statement.mapAll Token.bare second.body := by
  obtain ⟨readFirst, fitsFirst⟩ := Script.parse_iff_room.1 readFirst
  obtain ⟨readSecond, fitsSecond⟩ := Script.parse_iff_room.1 readSecond
  obtain ⟨tokensFirst, splitFirst, builtFirst⟩ := Script.parse_eq_ok readFirst
  obtain ⟨tokensSecond, splitSecond, builtSecond⟩ := Script.parse_eq_ok readSecond
  obtain ⟨d, proper, rfl, treeFirst⟩ :=
    (parseTokens_eq_ok (tokenize_endsOnce splitFirst)).1 builtFirst
  obtain ⟨e, proper', rfl, treeSecond⟩ :=
    (parseTokens_eq_ok (tokenize_endsOnce splitSecond)).1 builtSecond
  obtain ⟨front, marker, separator, later, split, separates, alike, joined⟩ :=
    tokenize_lines newlines toLine splitFirst splitSecond
  obtain ⟨e', rfl, properLater, trees⟩ :=
    e.relabel Token.bare_kind trivial proper' alike .nil
  obtain ⟨all, whole, properAll, tree⟩ := d.join e' proper properLater split separates
  have same : Statement.mapAll Token.bare e.tree = Statement.mapAll Token.bare e'.tree :=
    trees Token.bare_lexeme
  rw [← whole] at joined
  have fits : limit = 0 ∨ Statement.roomAll all.tree ≤ limit := by
    rw [← treeFirst] at fitsFirst
    rw [← treeSecond, ← Statement.roomAll_map Token.bare, same, Statement.roomAll_map] at fitsSecond
    rw [tree, Statement.roomAll_append]
    omega
  refine ⟨_, Script.parse_of_tokens joined (parseTokens_tokens all properAll fits), ?_⟩
  rw [tree, Statement.mapAll_append, ← treeFirst, ← treeSecond, same]

/-- One trigger, which takes the text behind the literal that follows it. -/
def titling : Options where
  triggers := .ofList [("title", 1)]

/-- A trigger that still waits for its literal does not take one of the next line, nor does a comment
go on there. -/
theorem title_lines_parsed : titling.newlineSeparates = true ∧ titling.verbatimToEnd = false ∧
    ∃ first second both, Script.parse titling 3 "title # the rest" = .ok first ∧
      Script.parse titling 3 "print a b" = .ok second ∧
      Script.parse titling 3 ("title # the rest" ++ "\n" ++ "print a b") = .ok both ∧
      Statement.mapAll Token.bare both.body =
        Statement.mapAll Token.bare first.body ++ Statement.mapAll Token.bare second.body := by
  obtain ⟨first, readFirst⟩ : ∃ first, Script.parse titling 3 "title # the rest" = .ok first :=
    ⟨_, rfl⟩
  obtain ⟨second, readSecond⟩ : ∃ second, Script.parse titling 3 "print a b" = .ok second := ⟨_, rfl⟩
  obtain ⟨both, read, same⟩ := Script.parse_lines rfl rfl readFirst readSecond
  exact ⟨rfl, rfl, first, second, both, readFirst, readSecond, read, same⟩

end Scriptlet
