import Scriptlet.Proofs.Lexer.Verbatim
import Scriptlet.Proofs.Syntax.Arguments

/-!
# Commands with verbatim text

The lexer takes verbatim text where it sees a trigger and the literals that it counts, and the
grammar decides which commands there are. The two agree: the verbatim text is an argument of the
command that the trigger names, behind the literals that were counted (`Inside.verbatim_last`), and
a command whose name the lexer sees has nothing else behind them (`Inside.trigger_arguments`).
-/

namespace Scriptlet

variable {options : Options} {limit : Nat} {source : String} {script : Script}

/-- What is read from a text is the tree of a derivation of its tokens. -/
lemma Script.parse_derived (read : Script.parse options limit source = .ok script) :
    ∃ d : Grammar.Derivation .script, d.Proper [] ∧ tokenize options source = .ok d.tokens ∧
      d.tree = script.body := by
  obtain ⟨tokens, split, built⟩ := Script.parse_eq_ok read
  obtain ⟨rest, done⟩ := Grammar.finish_eq_ok.1 built
  obtain ⟨d, proper, rfl, tree⟩ := Grammar.script_reads _ done
  obtain ⟨front, last, marker, behind, reads, -, kind, whole⟩ := reads_of_tokenize split
  obtain rfl := Grammar.EndsOnce.rest_eq_nil proper ⟨front, marker, whole, kind, reads.inner⟩
  rw [List.append_nil] at split
  exact ⟨d, proper, split, tree⟩

namespace Grammar

variable {d : Derivation .script} {name : Derivation .argument}
  {args : Derivation (.many .argument)} {front back earlier later literals : List Token}
  {trigger token : Token}

/-- The literals of the tree of a script are the literals among its tokens. -/
lemma Derivation.literals_of_script (proper : d.Proper []) :
    (((Node.script d.tree).outline.findAll .literal).filterMap Outline.origin) =
      d.tokens.filter Token.isLiteral := by
  rw [Outline.findAll_origins, ← d.literals proper]
  exact Outline.literalTokens_node (by decide) _ _ _

/-- No token of a script stands in two places. -/
lemma Derivation.same_place (split : tokenize options source = .ok d.tokens)
    (here : d.tokens = front ++ token :: later) (there : d.tokens = earlier ++ token :: back) :
    front = earlier := by
  obtain ⟨inside, last, marker, behind, reads, -, kind, whole⟩ := reads_of_tokenize split
  have nodup : d.tokens.Nodup := by
    rw [whole, List.nodup_append]
    refine ⟨reads.nodup.1, List.nodup_cons.2 ⟨List.not_mem_nil, .nil⟩, ?_⟩
    rintro t mem u single rfl
    obtain rfl := List.mem_singleton.1 single
    exact reads.inner _ mem kind
  rw [here, List.nodup_append, List.nodup_cons] at nodup
  obtain ⟨-, ⟨notLater, -⟩, apart⟩ := nodup
  have notFront : token ∉ front := fun mem => apart token mem token List.mem_cons_self rfl
  exact ((List.append_cons_inj_of_notMem notFront notLater).1 (here.symm.trans there)).1

/-- Where a command stands, the lexer is in no parentheses. -/
lemma Inside.outside (inside : Inside name args d front back) (proper : d.Proper [])
    (kinds : ∀ t ∈ literals, t.kind = .literal) {lx : Lexer}
    (reads : (Lexer.ofText source).Reads options (front ++ literals) lx) : lx.inParens = false := by
  obtain ⟨text, follows, -, -⟩ := reads.tiling (Lexer.ofText_follows source)
  have flat : ∀ t ∈ literals, t.kind.nest = id := fun t mem => by rw [kinds t mem]; rfl
  have nested : openBrackets (front ++ literals) = nestAll [] front := by
    show nestAll [] (front ++ literals) = _
    rw [nestAll_append, nestAll_flat flat]
  have outside : (nestAll [] front).head? ≠ some .paren :=
    inside.brackets proper fun paren => by cases paren
  have nesting : lx.brackets.map Prod.fst = openBrackets (front ++ literals) := follows.nesting
  rw [Lexer.inParens_eq, nesting, nested]
  simpa using outside

/-- What comes behind verbatim text: a token that ends the statement or opens a block or, if line
feeds separate nothing, one that something is in front of. -/
def Behind (options : Options) (later : List Token) : Prop :=
  ∀ t ∈ later.head?, t.kind ∈ stopKinds ∨ t.spaced = true ∧ ¬ options.newlineSeparates = true

/-- What comes behind verbatim text ends the statement, or has something in front. -/
lemma behind_text {lx mid : Lexer} (text : lx.TakesText token mid) (outside : lx.inParens = false)
    (next : ∀ t ∈ later.head?, ∃ last, mid.next options = (.ok t, last)) :
    Behind options later := by
  intro t first
  obtain ⟨last, read⟩ := next t first
  refine (Lexer.next_stops text.off text.stops read).imp_right (And.imp_right ?_)
  rw [Lexer.inParens_congr text.brackets]
  exact fun free feeds => free ⟨feeds, outside⟩

/-- The arguments behind the literals that a trigger counts, where `rest` is the text behind these:
the verbatim text that is ahead, if there is any, and nothing else if line feeds separate
statements. -/
inductive TakesVerbatim (options : Options) (rest : List Char) : List (Word Token) → Prop
  | none {others : List (Word Token)} :
    verbatimAhead rest = [] →
    (options.newlineSeparates = true → others = []) →
    TakesVerbatim options rest others
  | taken {token : Token} {more : List (Word Token)} :
    verbatimAhead rest ≠ [] →
    token.kind = .literal →
    token.lexeme.toList = verbatimAhead rest →
    (options.newlineSeparates = true → more = []) →
    TakesVerbatim options rest (token.toWord :: more)

/-- A token that stops verbatim text starts no piece. -/
lemma stops_of_kind {t : Token} (stops : t.kind ∈ stopKinds) :
    ¬ StartsWith pieceKinds (t :: later) := by
  have apart : ∀ kind ∈ stopKinds, kind ∉ pieceKinds := by decide
  exact apart t.kind stops

/-- The verbatim text that the arguments start with is one of them, and the last one if line feeds
separate statements. -/
lemma Derivation.verbatim_argument (rest : Derivation (.many .argument)) (proper : rest.Proper back)
    (split : rest.tokens ++ back = token :: later) (literal : token.kind = .literal)
    (behind : Behind options later) (stops : StartsWith enderKinds back) :
    ∃ more, rest.tree = token.toWord :: more ∧ (options.newlineSeparates = true → more = []) := by
  have ends : ¬ Added later := by
    cases later with
    | nil => exact And.left
    | cons t later =>
      obtain stops | ⟨spaced, -⟩ := behind t rfl
      · exact fun added => stops_of_kind stops added.2
      · exact not_added_of_spaced spaced
  have split : rest.tokens ++ back = [token] ++ later := split
  obtain ⟨last, properLast, left, words⟩ := rest.arguments_prefix proper split
    (List.forall_mem_singleton.2 literal) (by simp) ends (stops.apart (by decide))
  refine ⟨last.tree, words, fun feeds => last.arguments_none properLast left ?_⟩
  cases later with
  | nil => exact id
  | cons t later => exact stops_of_kind ((behind t rfl).resolve_right fun free => free.2 feeds)

section Commands

variable (toLine : options.verbatimToEnd = false) (proper : d.Proper [])
  (split : tokenize options source = .ok d.tokens)

include toLine proper split

/-- Verbatim text that something is in front of is an argument of the command that the trigger
names, behind the literals that were counted. -/
lemma Inside.verbatim_last (inside : Inside name args d front back)
    (here : d.tokens = front ++ trigger :: (literals ++ token :: later))
    (kind : trigger.kind = .literal) (kinds : ∀ t ∈ literals, t.kind = .literal ∧ t.spaced = true)
    (literal : token.kind = .literal)
    (strange : ∃ c ∈ token.lexeme.toList, options.isLiteral c = false)
    (spaced : token.spaced = true) :
    ∃ others, (trigger.toWord, literals.map Token.toWord ++ token.toWord :: others) ∈
        Statement.allCommands d.tree ∧ (options.newlineSeparates = true → others = []) := by
  have whole : d.tokens = (front ++ trigger :: literals) ++ token :: later := by simp [here]
  obtain ⟨lx, mid, reads, read, next⟩ := Lexer.read_at (whole ▸ split)
  obtain ⟨-, text⟩ := Lexer.due_of_strange toLine read literal strange
  have outside := inside.outside proper
    (List.forall_mem_cons.2 ⟨kind, fun t mem => (kinds t mem).1⟩) reads
  have behind := behind_text text outside next
  obtain ⟨rest, properRest, left, listed⟩ :=
    inside.leading_literals proper here kind kinds (not_added_of_spaced spaced)
  have ends := (inside.proper proper).2.2
  rw [List.append_nil] at ends
  obtain ⟨more, words, last⟩ := rest.verbatim_argument properRest left literal behind ends
  exact ⟨more, words ▸ listed, last⟩

/-- A command whose name the lexer sees as a trigger, with the literals that it counts, has behind
them the verbatim text that is ahead, and nothing else if line feeds separate statements. -/
lemma Inside.trigger_arguments (inside : Inside name args d front back)
    (word : name.tree = trigger.toWord) {others : List (Word Token)}
    (words : args.tree = literals.map Token.toWord ++ others) (kind : trigger.kind = .literal)
    (kinds : ∀ t ∈ literals, t.kind = .literal)
    (counts : options.triggers.get? trigger.lexeme = some literals.length)
    (attentive : Attentive options front) :
    ∃ written rest, source.toList = written ++ rest ∧
      Location.behind written = ((trigger :: literals).getLast (List.cons_ne_nil _ _)).span.stop ∧
      TakesVerbatim options rest others := by
  obtain ⟨-, properArgs, ends⟩ := inside.proper proper
  rw [List.append_nil] at properArgs ends
  obtain ⟨rest, written, properRest, rfl⟩ := args.arguments_split properArgs words
  have whole : d.tokens = (front ++ trigger :: literals) ++ (rest.tokens ++ back) := by
    rw [inside.tokens, name.tokens_of_tree word, written]
    simp
  obtain ⟨token, later, left⟩ : ∃ token later, rest.tokens ++ back = token :: later := by
    have filled := startsWith_ne_nil ends
    exact List.exists_cons_of_ne_nil fun none => filled (List.append_eq_nil_iff.1 none).2
  rw [whole, left] at split
  obtain ⟨lx, mid, reads, read, next⟩ := Lexer.read_at split
  obtain ⟨start, front_reads, counted⟩ := reads.split
  have due := (attentive.seeks front_reads).due counted kind kinds counts
  have outside := inside.outside proper (List.forall_mem_cons.2 ⟨kind, kinds⟩) reads
  rw [← List.dropLast_append_getLast (List.cons_ne_nil trigger literals), ← List.append_assoc]
    at reads
  obtain ⟨text, same, stands⟩ := reads.stands
  refine ⟨text, lx.rest, same, stands, ?_⟩
  obtain text | ⟨empty, plain, mid, spaced, brackets, stops, read⟩ := Lexer.next_due toLine due read
  · obtain ⟨more, words, last⟩ := rest.verbatim_argument properRest left text.kind
      (behind_text text outside next) ends
    rw [words]
    exact .taken text.filled text.kind text.lexeme last
  · refine .none empty fun feeds => rest.arguments_none properRest left (stops_of_kind ?_)
    rw [← Lexer.inParens_congr brackets] at outside
    exact (Lexer.ordinary_stops stops read).resolve_right fun free => free.2 ⟨feeds, outside⟩

end Commands

end Grammar

open Grammar

/-- Verbatim text is taken exactly at the triggers. A literal that holds a character of no plain
literal stands behind a trigger where a statement may start, and behind as many literals as the
trigger counts. Where the trigger starts a command and something is in front of the verbatim text,
this is an argument of the command, the literals are the arguments before it, and it is the last one
if line feeds separate statements. A command whose name is looked for as a trigger, and which starts
with the literals that the trigger counts, has behind them the verbatim text that is ahead. -/
theorem verbatim_text_at_triggers (toLine : options.verbatimToEnd = false)
    (read : Script.parse options limit source = .ok script) :
    ∃ tokens, tokenize options source = .ok tokens ∧
      (∀ token ∈ (script.root.outline.findAll .literal).filterMap Outline.origin,
        token.kind = .literal → (∃ c ∈ token.lexeme.toList, options.isLiteral c = false) →
        ∃ before trigger literals later,
          tokens = before ++ trigger :: (literals ++ token :: later) ∧ StartsStatement before ∧
          trigger.kind = .literal ∧ (∀ t ∈ literals, t.kind = .literal) ∧
          options.triggers.get? trigger.lexeme = some literals.length ∧
          (token.spaced = true →
            (Leads before ∨
              ∃ call ∈ Statement.allCommands script.body, call.1.origin? = some trigger) →
            ∃ others, (trigger.toWord, literals.map Token.toWord ++ token.toWord :: others) ∈
                Statement.allCommands script.body ∧
              (options.newlineSeparates = true → others = []))) ∧
      ∀ trigger literals others, (trigger.toWord, literals.map Token.toWord ++ others) ∈
          Statement.allCommands script.body →
        trigger.kind = .literal → (∀ t ∈ literals, t.kind = .literal) →
        options.triggers.get? trigger.lexeme = some literals.length →
        (∀ before later, tokens = before ++ trigger :: later → Attentive options before) →
        ∃ written rest, source.toList = written ++ rest ∧
          Location.behind written =
            ((trigger :: literals).getLast (List.cons_ne_nil _ _)).span.stop ∧
          TakesVerbatim options rest others := by
  obtain ⟨d, proper, split, tree⟩ := script.parse_derived read
  refine ⟨d.tokens, split, ?_, ?_⟩
  · intro token listed literal strange
    have mem : token ∈ d.tokens := by
      rw [Script.root, ← tree, Derivation.literals_of_script proper] at listed
      exact List.mem_of_mem_filter listed
    obtain ⟨earlier, later, here⟩ := List.append_of_mem mem
    obtain ⟨lx, mid, reads, read, -⟩ := Lexer.read_at (here ▸ split)
    obtain ⟨due, -⟩ := Lexer.due_of_strange toLine read literal strange
    obtain ⟨before, trigger, literals, rfl, starts, kind, kinds, counts⟩ := reads.counted toLine due
    have place : d.tokens = before ++ trigger :: (literals ++ token :: later) := by simp [here]
    refine ⟨before, trigger, literals, later, place, starts, kind, fun t inside =>
      (kinds t inside).1, counts, fun spaced command => ?_⟩
    obtain ⟨name, args, back, inside⟩ : ∃ name args back, Inside name args d before back := by
      obtain leads | ⟨call, called, origin⟩ := command
      · exact d.starts_inside trivial proper place kind leads
      · rw [← tree] at called
        obtain ⟨name, args, front, back, inside, rfl⟩ := d.exists_inside called
        obtain ⟨more, first⟩ := name.argument_origin origin
        have there := inside.tokens
        rw [first, List.cons_append] at there
        obtain rfl := Derivation.same_place split there place
        exact ⟨name, args, back, inside⟩
    rw [← tree]
    exact inside.verbatim_last toLine proper split place kind kinds literal strange spaced
  · intro trigger literals others listed kind kinds counts attentive
    rw [← tree] at listed
    obtain ⟨name, args, front, back, inside, same⟩ := d.exists_inside listed
    obtain ⟨word, words⟩ := Prod.mk.inj same
    have there := inside.tokens
    rw [name.tokens_of_tree word] at there
    exact inside.trigger_arguments toLine proper split word words kind kinds counts
      (attentive front _ there)

/-- One trigger, which takes the text behind the first literal. -/
def saying : Options where
  triggers := .ofList [("say", 1)]

/-- The tokens in front of the body of a control call. -/
def conditionTokens : List Token :=
  [⟨.bang, "!", ⟨⟨0, 0⟩, ⟨0, 1⟩⟩, true⟩, ⟨.literal, "if", ⟨⟨0, 1⟩, ⟨0, 3⟩⟩, false⟩,
    ⟨.openParen, "(", ⟨⟨0, 3⟩, ⟨0, 4⟩⟩, false⟩, ⟨.literal, "1", ⟨⟨0, 4⟩, ⟨0, 5⟩⟩, false⟩,
    ⟨.closeParen, ")", ⟨⟨0, 5⟩, ⟨0, 6⟩⟩, false⟩]

/-- The name of the trigger in the body. -/
def sayToken : Token :=
  ⟨.literal, "say", ⟨⟨0, 7⟩, ⟨0, 10⟩⟩, true⟩

/-- The literal that it counts. -/
def firstToken : Token :=
  ⟨.literal, "a", ⟨⟨0, 11⟩, ⟨0, 12⟩⟩, true⟩

/-- The verbatim text behind it. -/
def textToken : Token :=
  ⟨.literal, "b $c", ⟨⟨0, 14⟩, ⟨0, 19⟩⟩, true⟩

/-- In front of the body triggers are looked for: none is open in the condition. -/
lemma conditionTokens_attentive : Attentive saying conditionTokens := by
  intro earlier last same
  have ending : conditionTokens.getLast? = some last := by rw [same, List.getLast?_concat]
  cases ending
  refine .inr ⟨by decide, fun missing triggered => ?_⟩
  obtain ⟨before, name, literals, rfl, -, -, -, counts⟩ := triggered
  have none : ∀ t ∈ conditionTokens, saying.triggers.get? t.lexeme = none := by decide
  rw [none name (by rw [same]; simp)] at counts
  cases counts

/-- The body of a control call takes verbatim text. -/
theorem say_in_body :
    ∃ script, Script.parse saying 0 "!if(1) say a  b $c ;d" = .ok script ∧
      (sayToken.toWord, [firstToken.toWord, textToken.toWord]) ∈
        Statement.allCommands script.body ∧
      ∃ written rest, "!if(1) say a  b $c ;d".toList = written ++ rest ∧
        Location.behind written = firstToken.span.stop ∧
        TakesVerbatim saying rest [textToken.toWord] := by
  obtain ⟨script, read, called⟩ : ∃ script, Script.parse saying 0 "!if(1) say a  b $c ;d" =
      .ok script ∧ (sayToken.toWord, [firstToken.toWord, textToken.toWord]) ∈
        Statement.allCommands script.body := ⟨_, rfl, List.mem_cons_self⟩
  obtain ⟨tokens, split, -, arguments⟩ := verbatim_text_at_triggers rfl read
  obtain ⟨later, whole, apart⟩ : ∃ later, tokens = conditionTokens ++ sayToken :: later ∧
      sayToken ∉ later := by
    cases split
    exact ⟨_, rfl, by decide⟩
  refine ⟨script, read, called, ?_⟩
  refine arguments sayToken [firstToken] [textToken.toWord] called rfl (by decide) rfl ?_
  intro before more here
  rw [whole] at here
  obtain ⟨rfl, -, -⟩ := (List.append_cons_inj_of_notMem (by decide) apart).1 here
  exact conditionTokens_attentive

/-- One trigger, which takes the text behind its name. Line feeds separate statements if they are
said to. -/
def telling (feeds : Bool) : Options where
  newlineSeparates := feeds
  triggers := .ofList [("tell", 0)]

/-- Verbatim text is not always the last argument of the command that the trigger names: where line
feeds separate nothing the command goes on behind it, and without anything in front of it it is put
together with the name. -/
theorem verbatim_text_not_last :
    (∃ script, Script.parse (telling false) 0 "tell a b\nc" = .ok script ∧
      ∃ (trigger : Token) (args : List (Word Token)),
        (trigger.toWord, args) ∈ Statement.allCommands script.body ∧ trigger.kind = .literal ∧
        (telling false).triggers.get? trigger.lexeme = some 0 ∧
        args.map Word.content? = [some "a b", some "c"]) ∧
    ∃ script, Script.parse (telling true) 0 "tell$x y" = .ok script ∧
      ∃ trigger text : Token, trigger.kind = .literal ∧ text.kind = .literal ∧
        (telling true).triggers.get? trigger.lexeme = some 0 ∧ text.lexeme = "$x y" ∧
        Statement.allCommands script.body = [(.glued [trigger.toWord, text.toWord], [])] :=
  ⟨⟨_, rfl, ⟨.literal, "tell", ⟨⟨0, 0⟩, ⟨0, 4⟩⟩, true⟩, _, List.mem_cons_self, rfl, rfl, rfl⟩,
    _, rfl, _, _, rfl, rfl, rfl, rfl, rfl⟩

end Scriptlet
