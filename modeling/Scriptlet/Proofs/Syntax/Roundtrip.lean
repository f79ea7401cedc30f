import Scriptlet.Proofs.Syntax.Acceptance
import Scriptlet.Proofs.Syntax.Lexing
import Scriptlet.Proofs.Syntax.Neighbours
import Scriptlet.Syntax.Script

/-!
# Parsing undoes printing

The tokens of a printed tree are read back one by one, and they have a proper derivation whose tree
is the printed one. The parser finds that derivation, whatever the literals hold and whatever the
reading options are besides quotes.
-/

namespace Scriptlet

open Grammar

/-- What is printed is read as the tokens of a derivation of the symbol. The derivation is proper in
front of all tokens of which the condition holds, and the tree is as said. -/
def Yields (options : Options) (symbol : Symbol) (printed : List Char)
    (before : List Token → Prop) (tree : symbol.Value → Prop) : Prop :=
  ∀ ⦃lx : Lexer⦄ ⦃fresh gap : Bool⦄ ⦃brackets : List (Bracket × Location)⦄ ⦃text : List Char⦄,
    lx.Stands fresh brackets (space gap ++ (printed ++ text)) →
      ∃ (d : Derivation symbol) (last : Lexer), lx.Reads options d.tokens last ∧
        last.Stands false brackets text ∧ (∀ next, before next → d.Proper next) ∧ tree d.tree ∧
        FirstSpaced (fresh || gap) d.tokens

/-- What is printed behind something else is read as the tokens of a derivation of the repeated
symbol. In front of tokens that are apart the derivation is proper, and apart itself. -/
def YieldsMany (options : Options) (symbol : Symbol) (printed : List Char)
    (apart : List Token → Prop) (trees : List symbol.Value → Prop) : Prop :=
  ∀ ⦃lx : Lexer⦄ ⦃brackets : List (Bracket × Location)⦄ ⦃text : List Char⦄,
    lx.Stands false brackets (printed ++ text) →
      ∃ (d : Derivation (.many symbol)) (last : Lexer), lx.Reads options d.tokens last ∧
        last.Stands false brackets text ∧
        (∀ next, apart next → d.Proper next ∧ apart (d.tokens ++ next)) ∧ trees d.tree

variable {α : Type} {options : Options}

/-- The same word, whatever the annotations. -/
def Word.Same (word : Word Token) (other : Word α) : Prop :=
  word.map (fun _ => ()) = other.map fun _ => ()

/-- The same words, whatever the annotations. -/
def Word.AllSame (words : List (Word Token)) (others : List (Word α)) : Prop :=
  Word.mapAll (fun _ => ()) words = Word.mapAll (fun _ => ()) others

/-- What is printed of a name is read as a piece. -/
lemma Yields.plain {printed : List Char} {before : List Token → Prop} {tree : Word Token → Prop}
    (named : Yields options .name printed before tree) :
    Yields options .piece printed before tree := by
  intro lx fresh gap brackets text stands
  obtain ⟨d, last, reads, behind, proper, same, first⟩ := named stands
  refine ⟨.plain d, last, reads, behind, ?_, same, first⟩
  exact fun next h => ⟨⟨trivial, trivial⟩, proper next h⟩

/-- A piece alone is an argument, if nothing goes on with it. -/
lemma Yields.single {printed : List Char} {tree : Word Token → Prop}
    (pieced : Yields options .piece printed (fun _ => True) tree) :
    Yields options .argument printed Apart tree := by
  intro lx fresh gap brackets text stands
  obtain ⟨d, last, reads, behind, proper, same, first⟩ := pieced stands
  refine ⟨.argument d .nil, last, ?_, behind, ?_, same, ?_⟩
  · rwa [Derivation.tokens, Derivation.tokens, List.append_nil]
  · exact fun next apart => ⟨⟨trivial, apart⟩, proper _ trivial, trivial, trivial⟩
  · rwa [Derivation.tokens, Derivation.tokens, List.append_nil]

/-- What is printed of the word is read back wherever the grammar lets the word stand. -/
structure Word.Recovered (options : Options) (word : Word α) : Prop where
  name : word.isName → Yields options .name word.print (fun _ => True) (·.Same word)
  piece : ¬ word.isGlued → Yields options .piece word.print (fun _ => True) (·.Same word)
  argument : Yields options .argument word.print Apart (·.Same word)

/-- A word that is no name is recovered as an argument if it is as a piece. -/
lemma Word.Recovered.ofPiece {word : Word α} (other : word.isName = false)
    (pieced : Yields options .piece word.print (fun _ => True) (·.Same word)) :
    word.Recovered options where
  name named := by cases other.symm.trans named
  piece _ := pieced
  argument := pieced.single

/-- A name is recovered as a piece and as an argument. -/
lemma Word.Recovered.ofName {word : Word α}
    (named : Yields options .name word.print (fun _ => True) (·.Same word)) :
    word.Recovered options where
  name _ := named
  piece _ := named.plain
  argument := named.plain.single

/-- A literal is recovered, since it is printed in quotes. -/
lemma literal_recovered (quotes : options.quotes = true) (origin : α) (content : String) :
    (Word.literal origin content).Recovered options := by
  refine .ofName fun lx fresh gap brackets text stands => ?_
  rw [Word.print, List.cons_append, List.append_assoc] at stands
  obtain ⟨token, last, takes⟩ := Lexer.takes_quoted quotes stands
  refine ⟨.literal token, last, takes.single (by decide), takes.stands, ?_, ?_, takes.spaced⟩
  · exact fun _ _ => ⟨isLiteral_iff.2 (.inr takes.kind), trivial⟩
  · show Word.literal () token.lexeme = .literal () content
    rw [takes.lexeme, String.ofList_toList]

/-- No printed word starts with a circumflex, so none makes a vector of a dollar sign before it. -/
lemma print_ne_caret (word : Word α) (named : word.isName) (more text : List Char) :
    word.print ++ text ≠ '^' :: more := by
  intro same
  cases word with
  | literal _ _ => cases (List.cons.inj same).1
  | reference _ _ => cases (List.cons.inj same).1
  | substitution _ _ _ => cases (List.cons.inj same).1
  | vector _ _ => cases named
  | glued _ => cases named

/-- A reference is recovered if its name is. -/
lemma reference_recovered {name : Word α} (named : name.isName) (recovered : name.Recovered options)
    (origin : α) : (Word.reference origin name).Recovered options := by
  refine .ofName fun lx fresh gap brackets text stands => ?_
  rw [Word.print] at stands
  obtain ⟨sigil, mid, takes⟩ := Lexer.takes_dollar options stands (print_ne_caret name named · text)
  have atName : mid.Stands false brackets (space false ++ (name.print ++ text)) := takes.stands
  obtain ⟨d, last, reads, behind, proper, same, first⟩ := recovered.name named atName
  refine ⟨.reference sigil d, last, takes.cons (by decide) reads, behind, ?_, ?_, takes.spaced⟩
  · intro next _
    exact ⟨⟨⟨takes.kind, adjacent_of_firstSpaced first⟩, trivial⟩, proper next trivial⟩
  · exact congrArg (Word.reference ()) same

/-- The parenthesis behind a sigil, the name and the arguments of the call, and the parenthesis that
closes it. -/
lemma callTail_recovered {name : Word α} {args : List (Word α)} (named : name.Recovered options)
    (listed : YieldsMany options .argument (Word.printBehind args) Apart (Word.AllSame · args))
    {lx : Lexer} {brackets : List (Bracket × Location)} {text : List Char}
    (stands : lx.Stands false brackets
      ('(' :: (name.print ++ Word.printBehind args ++ [')'] ++ text))) :
    ∃ (d : Derivation .callTail) (last : Lexer), lx.Reads options d.tokens last ∧
      last.Stands false brackets text ∧ (∀ next, d.Proper next) ∧ d.tree.1.Same name ∧
      Word.AllSame d.tree.2 args := by
  have atOpener : lx.Stands false brackets (space false ++ Bracket.paren.openSign ::
      (name.print ++ Word.printBehind args ++ [')'] ++ text)) := stands
  obtain ⟨opener, mid, opened, opens⟩ := Lexer.takes_opener options .paren atOpener
  have atName : mid.Stands false ((.paren, opened) :: brackets)
      (space false ++ (name.print ++ (Word.printBehind args ++ ')' :: text))) := by
    simpa [space] using opens.stands
  obtain ⟨dn, behindName, readsName, atArgs, properName, sameName, -⟩ := named.argument atName
  obtain ⟨da, behindArgs, readsArgs, atCloser, properArgs, sameArgs⟩ := listed atArgs
  have atCloser : behindArgs.Stands false ((.paren, opened) :: brackets)
      (space false ++ Bracket.paren.closeSign :: text) := atCloser
  obtain ⟨closer, last, closes⟩ := Lexer.takes_closer options .paren atCloser
  refine ⟨.callTail opener dn da closer, last, ?_, closes.stands, ?_, sameName, sameArgs⟩
  · exact opens.cons (by decide) (readsName.append (readsArgs.append (closes.single (by decide))))
  · intro next
    have apart := apart_of_kind closes.kind (by decide) next
    -- no argument goes on with what is behind it, be it the next one, which is spaced, or the closer
    obtain ⟨proper, front⟩ := properArgs _ apart
    exact ⟨⟨⟨opens.kind, opens.spaced, closes.kind⟩, trivial⟩, properName _ front, proper⟩

/-- A substitution is recovered if its name and its arguments are. -/
lemma substitution_recovered {name : Word α} {args : List (Word α)} (named : name.Recovered options)
    (listed : YieldsMany options .argument (Word.printBehind args) Apart (Word.AllSame · args))
    (origin : α) : (Word.substitution origin name args).Recovered options := by
  refine .ofName fun lx fresh gap brackets text stands => ?_
  rw [Word.print] at stands
  obtain ⟨sigil, mid, takes⟩ := Lexer.takes_dollar options stands (by rintro more ⟨⟩)
  obtain ⟨d, last, reads, behind, proper, sameName, sameArgs⟩ :=
    callTail_recovered named listed takes.stands
  refine ⟨.substitution sigil d, last, takes.cons (by decide) reads, behind, ?_, ?_, takes.spaced⟩
  · exact fun next _ => ⟨⟨takes.kind, trivial⟩, proper next⟩
  · exact congrArg₂ (Word.substitution ()) sameName sameArgs

/-- So is a vector expansion of a call. -/
lemma vectorCall_recovered {name : Word α} {args : List (Word α)} (named : name.Recovered options)
    (listed : YieldsMany options .argument (Word.printBehind args) Apart (Word.AllSame · args))
    (origin inner : α) :
    (Word.vector origin (.substitution inner name args)).Recovered options := by
  refine .ofPiece rfl fun lx fresh gap brackets text stands => ?_
  rw [Word.print] at stands
  obtain ⟨sigil, mid, takes⟩ := Lexer.takes_vector options stands
  obtain ⟨d, last, reads, behind, proper, sameName, sameArgs⟩ :=
    callTail_recovered named listed takes.stands
  refine ⟨.vectorCall sigil d, last, takes.cons (by decide) reads, behind, ?_, ?_, takes.spaced⟩
  · exact fun next _ => ⟨⟨takes.kind, trivial⟩, proper next⟩
  · exact congrArg (Word.vector ()) (congrArg₂ (Word.substitution ()) sameName sameArgs)

/-- A vector expansion of a name is recovered if the name is. -/
lemma vectorReference_recovered {name : Word α} (named : name.isName)
    (recovered : name.Recovered options) (origin inner : α) :
    (Word.vector origin (.reference inner name)).Recovered options := by
  refine .ofPiece rfl fun lx fresh gap brackets text stands => ?_
  rw [Word.print] at stands
  obtain ⟨sigil, mid, takes⟩ := Lexer.takes_vector options stands
  have atName : mid.Stands false brackets (space false ++ (name.print ++ text)) := takes.stands
  obtain ⟨d, last, reads, behind, proper, same, first⟩ := recovered.name named atName
  refine ⟨.vectorReference sigil d, last, takes.cons (by decide) reads, behind, ?_, ?_,
    takes.spaced⟩
  · intro next _
    exact ⟨⟨⟨takes.kind, adjacent_of_firstSpaced first⟩, trivial⟩, proper next trivial⟩
  · exact congrArg (fun name => Word.vector () (.reference () name)) same

/-- Pieces with nothing between them are one argument. -/
lemma glued_recovered {first second : Word α} {rest : List (Word α)}
    (pieced : Yields options .piece first.print (fun _ => True) (·.Same first))
    (listed : YieldsMany options .adjacentPiece (Word.printGlued (second :: rest)) (fun _ => True)
      (Word.AllSame · (second :: rest))) :
    (Word.glued (first :: second :: rest)).Recovered options where
  name named := nomatch named
  piece other := absurd rfl other
  argument := by
    intro lx fresh gap brackets text stands
    rw [Word.print, Word.printGlued, List.append_assoc] at stands
    obtain ⟨d, mid, reads, between, proper, same, spaced⟩ := pieced stands
    obtain ⟨ds, last, readsAll, behind, properAll, sameAll⟩ := listed between
    refine ⟨.argument d ds, last, reads.append readsAll, behind, ?_, ?_, spaced.append _⟩
    · exact fun next apart => ⟨⟨trivial, apart⟩, proper _ trivial, (properAll next trivial).1⟩
    · show (glue d.tree ds.tree).Same _
      cases trees : ds.tree with
      | nil =>
        -- there is a second piece at least
        rw [trees] at sameAll
        cases sameAll
      | cons tree more =>
        rw [trees] at sameAll
        exact congrArg Word.glued (congrArg₂ List.cons same sameAll)

/-- Nothing is read from no words. -/
lemma yieldsMany_nil {symbol : Symbol} {apart : List Token → Prop}
    {trees : List symbol.Value → Prop} (none : trees []) :
    YieldsMany options symbol [] apart trees := by
  intro lx brackets text stands
  exact ⟨.nil, lx, .nil, stands, fun next h => ⟨⟨trivial, trivial⟩, h⟩, none⟩

/-- Arguments are recovered if the first and the others are. -/
lemma args_cons {word : Word α} {words : List (Word α)} (recovered : word.Recovered options)
    (listed : YieldsMany options .argument (Word.printBehind words) Apart (Word.AllSame · words)) :
    YieldsMany options .argument (Word.printBehind (word :: words)) Apart
      (Word.AllSame · (word :: words)) := by
  intro lx brackets text stands
  have atWord : lx.Stands false brackets
      (space true ++ (word.print ++ (Word.printBehind words ++ text))) := by
    simpa [space, Word.printBehind] using stands
  obtain ⟨d, mid, reads, between, proper, same, spaced⟩ := recovered.argument atWord
  obtain ⟨ds, last, readsAll, behind, properAll, sameAll⟩ := listed between
  refine ⟨.cons d ds, last, reads.append readsAll, behind, ?_, congrArg₂ List.cons same sameAll⟩
  intro next apart
  obtain ⟨properRest, front⟩ := properAll next apart
  refine ⟨⟨⟨trivial, trivial⟩, proper _ front, properRest⟩, ?_⟩
  rw [Derivation.tokens, List.append_assoc]
  exact apart_of_spaced spaced _

/-- So are pieces that are glued together. -/
lemma pieces_cons {word : Word α} {words : List (Word α)}
    (pieced : Yields options .piece word.print (fun _ => True) (·.Same word))
    (listed : YieldsMany options .adjacentPiece (Word.printGlued words) (fun _ => True)
      (Word.AllSame · words)) :
    YieldsMany options .adjacentPiece (Word.printGlued (word :: words)) (fun _ => True)
      (Word.AllSame · (word :: words)) := by
  intro lx brackets text stands
  have atWord : lx.Stands false brackets
      (space false ++ (word.print ++ (Word.printGlued words ++ text))) := by
    simpa [space, Word.printGlued] using stands
  obtain ⟨d, mid, reads, between, proper, same, first⟩ := pieced atWord
  obtain ⟨ds, last, readsAll, behind, properAll, sameAll⟩ := listed between
  refine ⟨.cons (.adjacent d) ds, last, reads.append readsAll, behind, ?_,
    congrArg₂ List.cons same sameAll⟩
  intro next _
  exact ⟨⟨⟨trivial, trivial⟩, ⟨⟨adjacent_of_firstSpaced first, trivial⟩, proper _ trivial⟩,
    (properAll next trivial).1⟩, trivial⟩

mutual

/-- Every word that has a shape of the grammar is read back. -/
theorem word_recovered (quotes : options.quotes = true) :
    (word : Word α) → word.Shaped → word.Recovered options
  | .literal origin content, _ => literal_recovered quotes origin content
  | .reference origin name, shaped =>
    reference_recovered shaped.1 (word_recovered quotes name shaped.2) origin
  | .substitution origin name args, shaped =>
    substitution_recovered (word_recovered quotes name shaped.1)
      (args_recovered quotes args shaped.2) origin
  | .vector origin (.reference inner name), shaped =>
    vectorReference_recovered shaped.2.1 (word_recovered quotes name shaped.2.2) origin inner
  | .vector origin (.substitution inner name args), shaped =>
    vectorCall_recovered (word_recovered quotes name shaped.2.1)
      (args_recovered quotes args shaped.2.2) origin inner
  | .vector _ (.literal _ _), shaped => nomatch shaped.1
  | .vector _ (.vector _ _), shaped => nomatch shaped.1
  | .vector _ (.glued _), shaped => nomatch shaped.1
  | .glued [], shaped => absurd shaped.1 (Nat.not_succ_le_zero 1)
  | .glued [_], shaped => absurd shaped.1 (Nat.not_succ_le_self 1)
  | .glued (first :: second :: rest), shaped =>
    glued_recovered ((word_recovered quotes first shaped.2.2.1).piece (shaped.2.1 _ (.head _)))
      (pieces_recovered quotes (second :: rest) shaped.2.2.2 fun piece member =>
        shaped.2.1 piece (.tail _ member))

/-- Arguments of the right shapes are recovered. -/
theorem args_recovered (quotes : options.quotes = true) :
    (words : List (Word α)) → Word.AllShaped words →
      YieldsMany options .argument (Word.printBehind words) Apart (Word.AllSame · words)
  | [], _ => yieldsMany_nil rfl
  | word :: words, shaped =>
    args_cons (word_recovered quotes word shaped.1) (args_recovered quotes words shaped.2)

/-- Pieces of the right shapes are recovered. -/
theorem pieces_recovered (quotes : options.quotes = true) :
    (words : List (Word α)) → Word.AllShaped words → (∀ word ∈ words, ¬ word.isGlued) →
      YieldsMany options .adjacentPiece (Word.printGlued words) (fun _ => True)
        (Word.AllSame · words)
  | [], _, _ => yieldsMany_nil rfl
  | word :: words, shaped, single =>
    pieces_cons ((word_recovered quotes word shaped.1).piece (single _ (.head _)))
      (pieces_recovered quotes words shaped.2 fun piece member => single piece (.tail _ member))

end

/-- The same statement, whatever the annotations. -/
def Statement.Same (statement : Statement Token) (other : Statement α) : Prop :=
  statement.map (fun _ => ()) = other.map fun _ => ()

/-- The same statements, whatever the annotations. -/
def Statement.AllSame (body : List (Statement Token)) (others : List (Statement α)) : Prop :=
  Statement.mapAll (fun _ => ()) body = Statement.mapAll (fun _ => ()) others

/-- A command is recovered in front of what ends it. -/
lemma command_recovered (quotes : options.quotes = true) {name : Word α} {args : List (Word α)}
    (shaped : (Statement.command name args).Shaped) :
    Yields options .statement (Statement.command name args).print EndsCommand
      (·.Same (.command name args)) := by
  intro lx fresh gap brackets text stands
  rw [Statement.print, Word.printAll, List.append_assoc] at stands
  obtain ⟨dn, mid, reads, between, proper, sameName, first⟩ :=
    (word_recovered quotes name shaped.1).argument stands
  obtain ⟨da, last, readsArgs, behind, properArgs, sameArgs⟩ :=
    args_recovered quotes args shaped.2 between
  refine ⟨.command dn da, last, reads.append readsArgs, behind, ?_, ?_, first.append _⟩
  · intro next ends
    obtain ⟨properRest, front⟩ := properArgs next ends.apart
    exact ⟨⟨ends, trivial⟩, proper _ front, properRest⟩
  · exact congrArg₂ Statement.command sameName sameArgs

/-- The arguments of a control call, the first of them right behind the parenthesis. -/
lemma parameters_recovered (quotes : options.quotes = true) {args : List (Word α)}
    (shaped : Word.AllShaped args) {lx : Lexer} {brackets : List (Bracket × Location)}
    {text : List Char} (stands : lx.Stands false brackets (Word.printAll args ++ text)) :
    ∃ (d : Derivation (.many .argument)) (last : Lexer), lx.Reads options d.tokens last ∧
      last.Stands false brackets text ∧ (∀ next, Apart next → d.Proper next) ∧
      Word.AllSame d.tree args := by
  cases args with
  | nil => exact ⟨.nil, lx, .nil, stands, fun _ _ => ⟨trivial, trivial⟩, rfl⟩
  | cons word words =>
    have atWord : lx.Stands false brackets
        (space false ++ (word.print ++ (Word.printBehind words ++ text))) := by
      simpa [space, Word.printAll] using stands
    obtain ⟨d, mid, reads, between, proper, same, -⟩ :=
      (word_recovered quotes word shaped.1).argument atWord
    obtain ⟨ds, last, readsAll, behind, properAll, sameAll⟩ :=
      args_recovered quotes words shaped.2 between
    refine ⟨.cons d ds, last, reads.append readsAll, behind, ?_, congrArg₂ List.cons same sameAll⟩
    intro next apart
    obtain ⟨properRest, front⟩ := properAll next apart
    exact ⟨⟨trivial, trivial⟩, proper _ front, properRest⟩

/-- A control call is recovered if its body is. -/
lemma control_recovered (quotes : options.quotes = true) {name : Word α} {args : List (Word α)}
    {body : Statement α} (shapedName : name.Shaped) (shapedArgs : Word.AllShaped args)
    (recovered : Yields options .statement body.print EndsCommand (·.Same body)) (origin : α) :
    Yields options .statement (Statement.control origin name args body).print EndsCommand
      (·.Same (.control origin name args body)) := by
  intro lx fresh gap brackets text stands
  rw [Statement.print] at stands
  obtain ⟨sigil, atSigil, takes⟩ := Lexer.takes_bang options stands
  have atName : atSigil.Stands false brackets (space false ++ (name.print ++
      '(' :: (Word.printAll args ++ ')' :: ' ' :: (body.print ++ text)))) := by
    simpa [space] using takes.stands
  obtain ⟨dn, behindName, readsName, standsName, properName, sameName, firstName⟩ :=
    (word_recovered quotes name shapedName).argument atName
  have atOpener : behindName.Stands false brackets (space false ++ Bracket.paren.openSign ::
      (Word.printAll args ++ ')' :: ' ' :: (body.print ++ text))) := standsName
  obtain ⟨opener, inside, opened, opens⟩ := Lexer.takes_opener options .paren atOpener
  obtain ⟨da, behindArgs, readsArgs, standsArgs, properArgs, sameArgs⟩ :=
    parameters_recovered quotes shapedArgs opens.stands
  have atCloser : behindArgs.Stands false ((.paren, opened) :: brackets)
      (space false ++ Bracket.paren.closeSign :: ' ' :: (body.print ++ text)) := standsArgs
  obtain ⟨closer, outside, closes⟩ := Lexer.takes_closer options .paren atCloser
  have atBody : outside.Stands false brackets (space true ++ (body.print ++ text)) := closes.stands
  obtain ⟨db, last, readsBody, standsBody, properBody, sameBody, -⟩ := recovered atBody
  refine ⟨.control sigil dn (.parameters opener da closer) db, last, ?_, standsBody, ?_, ?_,
    takes.spaced⟩
  · refine takes.cons (by decide) (readsName.append (Lexer.Reads.append ?_ readsBody))
    exact opens.cons (by decide) (readsArgs.append (closes.single (by decide)))
  · intro next ends
    refine ⟨⟨⟨takes.kind, adjacent_of_firstSpaced firstName⟩, trivial⟩, ?_, ?_, properBody _ ends⟩
    · exact properName _ (apart_of_kind opens.kind (by decide) _)
    · exact ⟨⟨⟨opens.kind, closes.kind⟩, trivial⟩,
        properArgs _ (apart_of_kind closes.kind (by decide) _)⟩
  · exact congr (congrArg₂ (Statement.control ()) sameName sameArgs) sameBody

/-- Behind statements, each statement has its own separator in front. -/
lemma behind_cons {s : Statement α} {body : List (Statement α)}
    (recovered : Yields options .statement s.print EndsCommand (·.Same s))
    (listed : YieldsMany options .separated (Statement.printBehind body) EndsCommand
      (Statement.AllSame · body)) :
    YieldsMany options .separated (Statement.printBehind (s :: body)) EndsCommand
      (Statement.AllSame · (s :: body)) := by
  intro lx brackets text stands
  have atSeparator : lx.Stands false brackets
      (space false ++ ';' :: (s.print ++ (Statement.printBehind body ++ text))) := by
    simpa [space, Statement.printBehind] using stands
  obtain ⟨separator, mid, takes⟩ := Lexer.takes_separator options atSeparator
  have atStatement : mid.Stands false brackets
      (space false ++ (s.print ++ (Statement.printBehind body ++ text))) := takes.stands
  obtain ⟨d, between, reads, standsBetween, proper, same, -⟩ := recovered atStatement
  obtain ⟨ds, last, readsAll, standsLast, properAll, sameAll⟩ := listed standsBetween
  refine ⟨.cons (.separated [separator] d) ds, last, ?_, standsLast, ?_,
    congrArg₂ List.cons same sameAll⟩
  · exact takes.cons (by decide) (reads.append readsAll)
  · intro next ends
    obtain ⟨properRest, front⟩ := properAll next ends
    have kinds : ∀ t ∈ [separator], t.kind = .separator := by
      intro t member
      rw [List.mem_singleton.1 member]
      exact takes.kind
    refine ⟨⟨⟨trivial, trivial⟩, ⟨⟨kinds, trivial⟩, proper _ front⟩, properRest⟩, ?_⟩
    exact (startsWith_cons takes.kind).mono (by decide)

/-- What is printed of statements, the first of them without a separator, is read as the tokens of
a derivation of them all. -/
def YieldsAll (options : Options) (body : List (Statement α)) : Prop :=
  ∀ ⦃lx : Lexer⦄ ⦃fresh : Bool⦄ ⦃brackets : List (Bracket × Location)⦄ ⦃text : List Char⦄,
    lx.Stands fresh brackets (Statement.printAll body ++ text) →
      ∃ (d : Derivation .statements) (last : Lexer) (still : Bool), lx.Reads options d.tokens last ∧
        last.Stands still brackets text ∧ (∀ next, EndsCommand next → d.Proper next) ∧
        Statement.AllSame d.tree body

/-- No statements are recovered. -/
lemma yieldsAll_nil : YieldsAll options ([] : List (Statement α)) := by
  intro lx fresh brackets text stands
  refine ⟨.statements .nil [], lx, fresh, .nil, stands, ?_, rfl⟩
  exact fun _ _ => ⟨⟨List.forall_mem_nil _, trivial⟩, trivial, trivial⟩

/-- Statements are recovered if the first and those behind it are. -/
lemma yieldsAll_cons {s : Statement α} {body : List (Statement α)}
    (recovered : Yields options .statement s.print EndsCommand (·.Same s))
    (listed : YieldsMany options .separated (Statement.printBehind body) EndsCommand
      (Statement.AllSame · body)) : YieldsAll options (s :: body) := by
  intro lx fresh brackets text stands
  have atStatement : lx.Stands fresh brackets
      (space false ++ (s.print ++ (Statement.printBehind body ++ text))) := by
    simpa [space, Statement.printAll] using stands
  obtain ⟨d, between, reads, standsBetween, proper, same, -⟩ := recovered atStatement
  obtain ⟨ds, last, readsAll, standsLast, properAll, sameAll⟩ := listed standsBetween
  refine ⟨.statements (.cons (.separated [] d) ds) [], last, false, ?_, standsLast, ?_,
    congrArg₂ List.cons same sameAll⟩
  · rw [Derivation.tokens, List.append_nil]
    exact reads.append readsAll
  · intro next ends
    obtain ⟨properRest, front⟩ := properAll next ends
    exact ⟨⟨List.forall_mem_nil _, trivial⟩, ⟨trivial, trivial⟩,
      ⟨⟨List.forall_mem_nil _, trivial⟩, proper _ front⟩, properRest⟩

/-- A block is recovered if its statements are. -/
lemma block_recovered {body : List (Statement α)} (all : YieldsAll options body) (origin : α) :
    Yields options .statement (Statement.block origin body).print EndsCommand
      (·.Same (.block origin body)) := by
  intro lx fresh gap brackets text stands
  have atOpener : lx.Stands fresh brackets (space gap ++ Bracket.brace.openSign ::
      (Statement.printAll body ++ '\x7d' :: text)) := by
    simpa [Statement.print, Bracket.openSign] using stands
  obtain ⟨opener, inside, opened, opens⟩ := Lexer.takes_opener options .brace atOpener
  obtain ⟨d, behind, still, reads, standsBehind, proper, same⟩ := all opens.stands
  have atCloser : behind.Stands still ((.brace, opened) :: brackets)
      (space false ++ Bracket.brace.closeSign :: text) := standsBehind
  obtain ⟨closer, last, closes⟩ := Lexer.takes_closer options .brace atCloser
  refine ⟨.block opener d closer, last, ?_, closes.stands, ?_, congrArg (Statement.block ()) same,
    opens.spaced⟩
  · exact opens.cons (by decide) (reads.append (closes.single (by decide)))
  · intro next _
    refine ⟨⟨⟨opens.kind, closes.kind⟩, trivial⟩, proper _ ?_⟩
    exact (startsWith_cons closes.kind).mono (by decide)

mutual

/-- Every statement of shaped words is read back. -/
theorem statement_recovered (quotes : options.quotes = true) :
    (s : Statement α) → s.Shaped → Yields options .statement s.print EndsCommand (·.Same s)
  | .command _ _, shaped => command_recovered quotes shaped
  | .control origin _ _ body, shaped =>
    control_recovered quotes shaped.1 shaped.2.1 (statement_recovered quotes body shaped.2.2) origin
  | .block origin body, shaped => block_recovered (all_recovered quotes body shaped) origin

/-- Statements of the right shapes are recovered. -/
theorem all_recovered (quotes : options.quotes = true) :
    (body : List (Statement α)) → Statement.AllShaped body → YieldsAll options body
  | [], _ => yieldsAll_nil
  | s :: body, shaped =>
    yieldsAll_cons (statement_recovered quotes s shaped.1) (behind_recovered quotes body shaped.2)

/-- And those behind a first statement, with the separators in front. -/
theorem behind_recovered (quotes : options.quotes = true) :
    (body : List (Statement α)) → Statement.AllShaped body →
      YieldsMany options .separated (Statement.printBehind body) EndsCommand
        (Statement.AllSame · body)
  | [], _ => yieldsMany_nil rfl
  | s :: body, shaped =>
    behind_cons (statement_recovered quotes s shaped.1) (behind_recovered quotes body shaped.2)

end

/-- Parsing undoes printing: what is printed of a tree that has the shapes of the grammar is parsed,
with quotes on and whatever the other options are, and the tree that is read is the printed one. -/
theorem Script.parse_print (quotes : options.quotes = true) {body : List (Statement α)}
    (shaped : Statement.AllShaped body) :
    ∃ script, Script.parse options 0 (.ofList (Statement.printAll body)) = .ok script ∧
      Statement.mapAll (fun _ => ()) script.body = Statement.mapAll (fun _ => ()) body := by
  have start : (Lexer.ofText (.ofList (Statement.printAll body))).Stands true []
      (Statement.printAll body ++ []) :=
    ⟨rfl, rfl, rfl, by rw [Lexer.ofText, String.toList_ofList, List.append_nil]⟩
  obtain ⟨d, last, still, reads, stands, proper, same⟩ := all_recovered quotes body shaped start
  obtain ⟨marker, tokenized, kind⟩ := tokenize_eq reads stands
  have properScript : (Derivation.script d marker).Proper [] :=
    ⟨⟨kind, trivial⟩, proper _ ((startsWith_cons kind).mono (by decide))⟩
  have parsed := parseTokens_tokens (.script d marker) properScript (.inl rfl)
  refine ⟨⟨.ofList (Statement.printAll body), d.tree⟩, ?_, same⟩
  rw [Script.parse, tokenized]
  show (Grammar.parseTokens 0 (d.tokens ++ [marker])).bind _ = _
  rw [show Grammar.parseTokens 0 (d.tokens ++ [marker]) = .ok d.tree from parsed]
  rfl

/-- A command whose argument looks as if it ended its quotes and its statement. -/
def hostileScript : List (Statement Unit) :=
  [.command (.literal () "say") [.literal () "\"; stop", .glued [.reference () (.literal () "x"),
    .literal () "\\"]]]

example : String.ofList (Statement.printAll hostileScript) =
    "\"say\" \"\\\"; stop\" $\"x\"\"\\\\\"" := by
  decide

/-- A script whose literals look like the rest of the syntax is read back. -/
theorem hostile_script_parsed : ({} : Options).quotes = true ∧ Statement.AllShaped hostileScript ∧
    ∃ script, Script.parse {} 0 (.ofList (Statement.printAll hostileScript)) = .ok script ∧
      Statement.mapAll (fun _ => ()) script.body = hostileScript := by
  have shaped : Statement.AllShaped hostileScript := by
    simp [hostileScript, Statement.AllShaped, Statement.Shaped, Word.AllShaped, Word.Shaped,
      Word.isName, Word.isGlued]
  exact ⟨rfl, shaped, Script.parse_print rfl shaped⟩

end Scriptlet
