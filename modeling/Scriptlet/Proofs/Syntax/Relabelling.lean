import Mathlib.Data.List.Forall2
import Scriptlet.Proofs.Syntax.Neighbours
import Scriptlet.Proofs.Syntax.Soundness

/-!
# Tokens that look alike

A derivation does not see where its tokens stand. Tokens of the same kinds that are spaced in the
same way have a derivation of the same form, and if their lexemes are the same, too, its tree is the
same up to annotations. Whether the first token is spaced matters for few symbols.
-/

namespace Scriptlet.Grammar

/-- The tokens look alike, and those behind the first are spaced alike. The first is, too, if `near`
holds. -/
inductive Alike {β : Type} (look : Token → β) : Prop → List Token → List Token → Prop
  | nil {near : Prop} :
    Alike look near [] []
  | cons {near : Prop} {t t' : Token} {tokens tokens' : List Token} :
    look t = look t' →
    (near → t.spaced = t'.spaced) →
    Alike look True tokens tokens' →
    Alike look near (t :: tokens) (t' :: tokens')

namespace Symbol

/-- What is derived from the symbol is not spaced. -/
def Near : Symbol → Prop
  | callTail | adjacentPiece => True
  | name | piece | argument | parameters | statement | separated | statements | script => False
  | many symbol => symbol.Near

/-- Only what takes tokens is repeated. -/
def Solid : Symbol → Prop
  | many symbol => ¬ symbol.Begins []
  | name | callTail | piece | adjacentPiece | argument | parameters | statement | separated
  | statements | script => True

/-- The same trees up to what the annotations look like. -/
def Same {β : Type} (look : Token → β) : (symbol : Symbol) → symbol.Value → symbol.Value → Prop
  | name, w, w' | piece, w, w' | adjacentPiece, w, w' | argument, w, w' => w.map look = w'.map look
  | callTail, c, c' => c.1.map look = c'.1.map look ∧ Word.mapAll look c.2 = Word.mapAll look c'.2
  | parameters, args, args' => Word.mapAll look (args.getD []) = Word.mapAll look (args'.getD [])
  | statement, s, s' | separated, s, s' => s.map look = s'.map look
  | statements, body, body' | script, body, body' =>
    Statement.mapAll look body = Statement.mapAll look body'
  | many symbol, values, values' => List.Forall₂ (symbol.Same look) values values'

/-- A symbol that needs a first token is solid. -/
lemma solid_of_not_begins {symbol : Symbol} (nonempty : ¬ symbol.Begins []) : symbol.Solid := by
  cases symbol with
  | many symbol => exact absurd trivial nonempty
  | _ => trivial

end Symbol

variable {β : Type} {look : Token → β} {near : Prop} {tokens tokens' next next' : List Token}

namespace Alike

/-- Tokens that are alike are so where less is asked of the first space. -/
lemma weaken {other : Prop} (alike : Alike look near tokens tokens') (weaker : other → near) :
    Alike look other tokens tokens' := by
  cases alike with
  | nil => exact .nil
  | cons same spaced rest => exact .cons same (fun h => spaced (weaker h)) rest

/-- Where the first space counts, the tokens are alike in full. -/
lemma full (alike : Alike look near tokens tokens') (holds : near) :
    Alike look True tokens tokens' :=
  alike.weaken fun _ => holds

/-- Where all are spaced alike, the first is. -/
lemma of_all (alike : Alike look True tokens tokens') : Alike look near tokens tokens' :=
  alike.weaken fun _ => trivial

/-- Tokens that are alike are alike in a front and, behind it, in the rest. -/
lemma split {front back : List Token} (alike : Alike look near (front ++ back) tokens') :
    ∃ front' back', tokens' = front' ++ back' ∧ Alike look near front front' ∧
      Alike look (near ∨ front ≠ []) back back' := by
  induction front generalizing near tokens' with
  | nil => exact ⟨[], tokens', rfl, .nil, alike.weaken (by simp)⟩
  | cons t front ih =>
    obtain ⟨⟩ | ⟨same, spaced, rest⟩ := alike
    obtain ⟨front', back', rfl, first, second⟩ := ih rest
    exact ⟨_ :: front', back', rfl, .cons same spaced first, second.weaken (by simp)⟩

/-- Behind other tokens, all are spaced alike. -/
lemma split_behind {front back : List Token} (alike : Alike look near (front ++ back) tokens')
    (filled : front ≠ []) :
    ∃ front' back', tokens' = front' ++ back' ∧ Alike look near front front' ∧
      Alike look True back back' := by
  obtain ⟨front', back', same, first, second⟩ := alike.split
  exact ⟨front', back', same, first, second.weaken fun _ => .inr filled⟩

/-- Tokens that are alike in a front and in the rest are alike. -/
lemma append (first : Alike look near tokens tokens')
    (second : Alike look (near ∨ tokens ≠ []) next next') :
    Alike look near (tokens ++ next) (tokens' ++ next') := by
  induction first with
  | nil => exact second.weaken .inl
  | cons same spaced _ ih => exact .cons same spaced (ih (second.weaken (by simp)))

/-- In front of other tokens that all are spaced alike, so are all. -/
lemma append_all (first : Alike look near tokens tokens') (second : Alike look True next next') :
    Alike look near (tokens ++ next) (tokens' ++ next') :=
  first.append second.of_all

/-- Between two tokens, and from the second on, all are spaced alike. -/
lemma enclosed {opener closer : Token} {middle : List Token}
    (alike : Alike look near (opener :: (middle ++ [closer])) tokens')
    (behind : Alike look True next next') :
    ∃ opener' middle' closer', tokens' = opener' :: (middle' ++ [closer']) ∧
      look opener = look opener' ∧ (near → opener.spaced = opener'.spaced) ∧
      look closer = look closer' ∧ Alike look True middle middle' ∧
      Alike look True (closer :: next) (closer' :: next') := by
  obtain ⟨⟩ | ⟨same, spaced, rest⟩ := alike
  obtain ⟨middle', _, rfl, between, last⟩ := rest.split
  obtain ⟨⟩ | ⟨sameCloser, spacedCloser, ⟨⟩⟩ := last
  have closes : Alike look True (closer :: next) (_ :: next') :=
    .cons sameCloser (fun _ => spacedCloser (.inl trivial)) behind
  exact ⟨_, middle', _, rfl, same, spaced, sameCloser, between, closes⟩

/-- Alike tokens are adjacent together. -/
lemma adjacent (alike : Alike look True tokens tokens') (h : Adjacent tokens) :
    Adjacent tokens' := by
  obtain ⟨⟩ | ⟨-, spaced, -⟩ := alike
  · exact h
  · exact (spaced trivial).symm.trans h

variable (kinds : ∀ {t t' : Token}, look t = look t' → t.kind = t'.kind)

include kinds

/-- Alike tokens start with the same kind. -/
lemma startsWith (alike : Alike look near tokens tokens') {starts : List TokenKind} :
    StartsWith starts tokens ↔ StartsWith starts tokens' := by
  obtain ⟨⟩ | ⟨same, -, -⟩ := alike
  · exact Iff.rfl
  · show _ ∈ starts ↔ _ ∈ starts
    rw [kinds same]

/-- Alike tokens are of the same kinds throughout. -/
lemma all_kind (alike : Alike look near tokens tokens') {kind : TokenKind}
    (all : ∀ t ∈ tokens, t.kind = kind) : ∀ t ∈ tokens', t.kind = kind := by
  induction alike with
  | nil => exact all
  | cons same _ _ ih =>
    obtain ⟨first, rest⟩ := List.forall_mem_cons.1 all
    exact List.forall_mem_cons.2 ⟨(kinds same).symm.trans first, ih rest⟩

end Alike

/-- To be alike goes both ways. -/
lemma Alike.symm (alike : Alike look near tokens tokens') : Alike look near tokens' tokens := by
  induction alike with
  | nil => exact .nil
  | cons same spaced _ ih => exact .cons same.symm (fun h => (spaced h).symm) ih

/-- Arguments that are the same are the same words. -/
lemma mapAll_of_same {words words' : List (Word Token)}
    (same : (Symbol.many .argument).Same look words words') :
    Word.mapAll look words = Word.mapAll look words' := by
  induction same with
  | nil => rfl
  | cons first _ ih => exact congrArg₂ List.cons first ih

/-- Substitutions are the same if their sigils and calls are. -/
lemma substitution_same {sigil sigil' : Token} {call call' : Symbol.callTail.Value}
    (same : look sigil = look sigil') (calls : Symbol.callTail.Same look call call') :
    (Word.substitution sigil call.1 call.2).map look =
      (Word.substitution sigil' call'.1 call'.2).map look := by
  obtain ⟨name, args⟩ := calls
  show Word.substitution (look sigil) (call.1.map look) (Word.mapAll look call.2) = _
  rw [same, name, args]
  rfl

/-- References are the same if their sigils and names are. -/
lemma reference_same {sigil sigil' : Token} {name name' : Word Token}
    (same : look sigil = look sigil') (names : name.map look = name'.map look) :
    (Word.reference sigil name).map look = (Word.reference sigil' name').map look :=
  congrArg₂ Word.reference same names

/-- Glued pieces are the same if each of them is. -/
lemma glue_same {first first' : Word Token} {rest rest' : List (Word Token)}
    (sameFirst : first.map look = first'.map look)
    (sameRest : (Symbol.many .adjacentPiece).Same look rest rest') :
    (glue first rest).map look = (glue first' rest').map look := by
  cases sameRest with
  | nil => exact sameFirst
  | cons second more =>
    have all := mapAll_of_same (.cons sameFirst (.cons second more))
    exact congrArg Word.glued all

/-- Statements that are the same with their separators are the same. -/
lemma body_of_same {body body' : List (Statement Token)}
    (same : (Symbol.many .separated).Same look body body') :
    Statement.mapAll look body = Statement.mapAll look body' := by
  induction same with
  | nil => rfl
  | cons first _ ih => exact congrArg₂ List.cons first ih

/-- An argument goes on with neither of two lists that are alike, or with both. -/
lemma Alike.apart (kinds : ∀ {t t' : Token}, look t = look t' → t.kind = t'.kind)
    (behind : Alike look True next next') (apart : Apart next) : Apart next' :=
  fun added => apart ⟨behind.symm.adjacent added.1, (behind.startsWith kinds).2 added.2⟩

/-- Tokens that look like those of the derivation have a derivation of the same form. -/
def Derivation.Relabels (look : Token → β) {symbol : Symbol} (d : Derivation symbol) : Prop :=
  ∀ {next tokens' next' : List Token}, symbol.Solid → d.Proper next →
    Alike look symbol.Near d.tokens tokens' → Alike look (d.tokens ≠ []) next next' →
    ∃ d' : Derivation symbol, d'.tokens = tokens' ∧ d'.Proper next' ∧
      ((∀ {t t' : Token}, look t = look t' → t.lexeme = t'.lexeme) →
        symbol.Same look d.tree d'.tree)

namespace Derivation

variable {symbol : Symbol}

/-- A name is relabelled as a piece. -/
lemma relabels_plain {name : Derivation .name} (ih : name.Relabels look) :
    (plain name).Relabels look := by
  intro _ _ _ _ proper alike behind
  obtain ⟨name', rfl, proper', trees⟩ := ih trivial proper.2 alike behind
  exact ⟨.plain name', rfl, ⟨⟨trivial, trivial⟩, proper'⟩, trees⟩

/-- What had nothing before it has nothing before it. -/
lemma relabels_adjacent {piece : Derivation .piece} (ih : piece.Relabels look) :
    (adjacent piece).Relabels look := by
  intro _ _ _ _ proper alike behind
  have near := alike.adjacent proper.1.1
  obtain ⟨piece', rfl, proper', trees⟩ :=
    ih trivial proper.2 alike.of_all behind
  exact ⟨.adjacent piece', rfl, ⟨⟨near, trivial⟩, proper'⟩, trees⟩

/-- Nothing looks like nothing only. -/
lemma relabels_noParameters : noParameters.Relabels look := by
  intro _ _ _ _ _ alike _
  obtain ⟨⟩ := alike
  exact ⟨.noParameters, rfl, ⟨trivial, trivial⟩, fun _ => rfl⟩

/-- No rounds look like no rounds. -/
lemma relabels_nil : (nil : Derivation (.many symbol)).Relabels look := by
  intro _ _ _ _ _ alike _
  obtain ⟨⟩ := alike
  exact ⟨.nil, rfl, ⟨trivial, trivial⟩, fun _ => .nil⟩

/-- A round is relabelled in front of the others. -/
lemma relabels_cons {first : Derivation symbol} {rest : Derivation (.many symbol)}
    (ihFirst : first.Relabels look) (ihRest : rest.Relabels look) :
    (cons first rest).Relabels look := by
  intro _ _ _ solid proper alike behind
  obtain ⟨-, properFirst, properRest⟩ := proper
  obtain ⟨firstTokens, restTokens, rfl, alikeFirst, alikeRest⟩ :=
    alike.split_behind (first.taken properFirst solid)
  have behind := behind.full (by simp [first.taken properFirst solid])
  obtain ⟨first', rfl, properFirst', treesFirst⟩ := ihFirst (Symbol.solid_of_not_begins solid)
    properFirst alikeFirst (alikeRest.append_all behind).of_all
  obtain ⟨rest', rfl, properRest', treesRest⟩ :=
    ihRest solid properRest alikeRest.of_all behind.of_all
  exact ⟨.cons first' rest', rfl, ⟨⟨trivial, trivial⟩, properFirst', properRest'⟩,
    fun lexemes => .cons (treesFirst lexemes) (treesRest lexemes)⟩

section

variable (kinds : ∀ {t t' : Token}, look t = look t' → t.kind = t'.kind)
include kinds

/-- Whether a token is a literal is seen from its kind. -/
lemma relabels_literal {token : Token} : (literal token).Relabels look := by
  intro _ _ _ _ proper alike _
  obtain ⟨⟩ | ⟨same, -, ⟨⟩⟩ := alike
  rename_i t
  refine ⟨.literal t, rfl, ⟨?_, trivial⟩, fun lexemes => ?_⟩
  · have lawful : token.isLiteral := proper.1
    show t.isLiteral
    rw [isLiteral_iff] at lawful ⊢
    rwa [kinds same] at lawful
  · show Word.literal (look token) token.lexeme = .literal (look t) t.lexeme
    rw [same, lexemes same]

/-- A call behind a dollar sign is relabelled behind it. -/
lemma relabels_substitution {sigil : Token} {tail : Derivation .callTail}
    (ih : tail.Relabels look) : (substitution sigil tail).Relabels look := by
  intro _ _ _ _ proper alike behind
  obtain ⟨⟩ | ⟨same, -, rest⟩ := alike
  rename_i t _
  obtain ⟨⟨kind, -⟩, properTail⟩ := proper
  obtain ⟨tail', rfl, proper', trees⟩ :=
    ih trivial properTail rest (behind.weaken fun _ => List.cons_ne_nil _ _)
  refine ⟨.substitution t tail', rfl, ⟨⟨(kinds same).symm.trans kind, trivial⟩, proper'⟩, ?_⟩
  exact fun lexemes => substitution_same same (trees lexemes)

/-- A name stays right behind its dollar sign. -/
lemma relabels_reference {sigil : Token} {name : Derivation .name} (ih : name.Relabels look) :
    (reference sigil name).Relabels look := by
  intro _ _ _ _ proper alike behind
  obtain ⟨⟩ | ⟨same, -, rest⟩ := alike
  rename_i t _
  obtain ⟨⟨⟨kind, near⟩, -⟩, properName⟩ := proper
  have near := rest.adjacent near
  obtain ⟨name', rfl, proper', trees⟩ :=
    ih trivial properName rest.of_all
      (behind.weaken fun _ => List.cons_ne_nil _ _)
  refine ⟨.reference t name', rfl, ⟨⟨⟨(kinds same).symm.trans kind, near⟩, trivial⟩, proper'⟩, ?_⟩
  exact fun lexemes => reference_same same (trees lexemes)

/-- Between its parentheses, a call is relabelled from its last argument to its name. -/
lemma relabels_callTail {opener : Token} {name : Derivation .argument}
    {args : Derivation (.many .argument)} {closer : Token} (ihName : name.Relabels look)
    (ihArgs : args.Relabels look) : (callTail opener name args closer).Relabels look := by
  intro _ _ _ _ proper alike behind
  obtain ⟨⟨⟨opens, near, closes⟩, -⟩, properName, properArgs⟩ := proper
  rw [tokens, ← List.append_assoc] at alike
  obtain ⟨t, _, t', rfl, same, spaced, sameCloser, between, last⟩ :=
    alike.enclosed (behind.full (List.cons_ne_nil _ _))
  obtain ⟨nameTokens, argTokens, rfl, alikeName, alikeArgs⟩ := between.split
  have alikeArgs := alikeArgs.full (.inl trivial)
  obtain ⟨args', rfl, properArgs', treesArgs⟩ :=
    ihArgs id properArgs alikeArgs.of_all last.of_all
  obtain ⟨name', rfl, properName', treesName⟩ :=
    ihName trivial properName alikeName.of_all
      (alikeArgs.append_all last).of_all
  refine ⟨.callTail t name' args' t', by rw [tokens, List.append_assoc],
    ⟨⟨⟨?_, ?_, ?_⟩, trivial⟩, properName', properArgs'⟩, ?_⟩
  · exact (kinds same).symm.trans opens
  · exact (spaced trivial).symm.trans near
  · exact (kinds sameCloser).symm.trans closes
  · exact fun lexemes => ⟨treesName lexemes, mapAll_of_same (treesArgs lexemes)⟩

/-- A call behind the sigil of a vector is relabelled behind it. -/
lemma relabels_vectorCall {sigil : Token} {tail : Derivation .callTail} (ih : tail.Relabels look) :
    (vectorCall sigil tail).Relabels look := by
  intro _ _ _ _ proper alike behind
  obtain ⟨⟩ | ⟨same, -, rest⟩ := alike
  rename_i t _
  obtain ⟨⟨kind, -⟩, properTail⟩ := proper
  obtain ⟨tail', rfl, proper', trees⟩ :=
    ih trivial properTail rest (behind.weaken fun _ => List.cons_ne_nil _ _)
  refine ⟨.vectorCall t tail', rfl, ⟨⟨(kinds same).symm.trans kind, trivial⟩, proper'⟩, ?_⟩
  exact fun lexemes => congrArg₂ Word.vector same (substitution_same same (trees lexemes))

/-- A name stays right behind the sigil of its vector. -/
lemma relabels_vectorReference {sigil : Token} {name : Derivation .name} (ih : name.Relabels look) :
    (vectorReference sigil name).Relabels look := by
  intro _ _ _ _ proper alike behind
  obtain ⟨⟩ | ⟨same, -, rest⟩ := alike
  rename_i t _
  obtain ⟨⟨⟨kind, near⟩, -⟩, properName⟩ := proper
  have near := rest.adjacent near
  obtain ⟨name', rfl, proper', trees⟩ :=
    ih trivial properName rest.of_all
      (behind.weaken fun _ => List.cons_ne_nil _ _)
  refine ⟨.vectorReference t name', rfl,
    ⟨⟨⟨(kinds same).symm.trans kind, near⟩, trivial⟩, proper'⟩, ?_⟩
  exact fun lexemes => congrArg₂ Word.vector same (reference_same same (trees lexemes))

/-- No piece can be added to the relabelled argument, either. -/
lemma relabels_argument {first : Derivation .piece} {rest : Derivation (.many .adjacentPiece)}
    (ihFirst : first.Relabels look) (ihRest : rest.Relabels look) :
    (argument first rest).Relabels look := by
  intro _ _ _ _ proper alike behind
  obtain ⟨⟨-, whole⟩, properFirst, properRest⟩ := proper
  obtain ⟨firstTokens, restTokens, rfl, alikeFirst, alikeRest⟩ :=
    alike.split_behind (first.taken properFirst id)
  have behind := behind.full (by simp [first.taken properFirst id])
  obtain ⟨rest', rfl, properRest', treesRest⟩ :=
    ihRest And.left properRest alikeRest behind.of_all
  obtain ⟨first', rfl, properFirst', treesFirst⟩ :=
    ihFirst trivial properFirst alikeFirst (alikeRest.append_all behind).of_all
  refine ⟨.argument first' rest', rfl,
    ⟨⟨trivial, behind.apart kinds whole⟩, properFirst', properRest'⟩, ?_⟩
  exact fun lexemes => glue_same (treesFirst lexemes) (treesRest lexemes)

/-- Parameters are relabelled between their parentheses. -/
lemma relabels_parameters {opener : Token} {args : Derivation (.many .argument)} {closer : Token}
    (ih : args.Relabels look) : (parameters opener args closer).Relabels look := by
  intro _ _ _ _ proper alike behind
  obtain ⟨⟨⟨opens, closes⟩, -⟩, properArgs⟩ := proper
  obtain ⟨t, _, t', rfl, same, -, sameCloser, alikeArgs, last⟩ :=
    Alike.enclosed alike (behind.full (List.cons_ne_nil _ _))
  obtain ⟨args', rfl, properArgs', trees⟩ := ih id properArgs alikeArgs.of_all last.of_all
  refine ⟨.parameters t args' t', rfl, ⟨⟨⟨?_, ?_⟩, trivial⟩, properArgs'⟩, ?_⟩
  · exact (kinds same).symm.trans opens
  · exact (kinds sameCloser).symm.trans closes
  · exact fun lexemes => mapAll_of_same (trees lexemes)

/-- The body of a block is relabelled between its braces. -/
lemma relabels_block {opener : Token} {body : Derivation .statements} {closer : Token}
    (ih : body.Relabels look) : (block opener body closer).Relabels look := by
  intro _ _ _ _ proper alike behind
  obtain ⟨⟨⟨opens, closes⟩, -⟩, properBody⟩ := proper
  obtain ⟨t, _, t', rfl, same, -, sameCloser, alikeBody, last⟩ :=
    Alike.enclosed alike (behind.full (List.cons_ne_nil _ _))
  obtain ⟨body', rfl, properBody', trees⟩ := ih trivial properBody alikeBody.of_all last.of_all
  refine ⟨.block t body' t', rfl, ⟨⟨⟨?_, ?_⟩, trivial⟩, properBody'⟩, ?_⟩
  · exact (kinds same).symm.trans opens
  · exact (kinds sameCloser).symm.trans closes
  · exact fun lexemes => congrArg₂ Statement.block same (trees lexemes)

/-- A control call is relabelled from its body to its name, which stays right behind its bang. -/
lemma relabels_control {sigil : Token} {name : Derivation .argument}
    {params : Derivation .parameters} {body : Derivation .statement} (ihName : name.Relabels look)
    (ihParams : params.Relabels look) (ihBody : body.Relabels look) :
    (control sigil name params body).Relabels look := by
  intro _ _ _ _ proper alike behind
  obtain ⟨⟨⟨kind, near⟩, -⟩, properName, properParams, properBody⟩ := proper
  obtain ⟨⟩ | ⟨same, -, rest⟩ := alike
  rename_i t _
  obtain ⟨nameTokens, _, rfl, alikeName, rest⟩ := rest.split
  obtain ⟨paramTokens, bodyTokens, rfl, alikeParams, alikeBody⟩ := rest.split
  have alikeName := alikeName.full (by simp)
  have alikeParams := alikeParams.full (by simp)
  have alikeBody := alikeBody.full (by simp)
  have behind := behind.full (by simp)
  have near := alikeName.adjacent near
  obtain ⟨name', rfl, properName', treesName⟩ := ihName trivial properName alikeName.of_all
    (alikeParams.append_all (alikeBody.append_all behind)).of_all
  obtain ⟨params', rfl, properParams', treesParams⟩ := ihParams trivial properParams
    alikeParams.of_all (alikeBody.append_all behind).of_all
  obtain ⟨body', rfl, properBody', treesBody⟩ :=
    ihBody trivial properBody alikeBody.of_all behind.of_all
  refine ⟨.control t name' params' body', rfl, ⟨⟨⟨(kinds same).symm.trans kind, near⟩, trivial⟩,
    properName', properParams', properBody'⟩, fun lexemes => ?_⟩
  show Statement.control (look sigil) (name.tree.map look) (Word.mapAll look (params.tree.getD []))
    (body.tree.map look) = _
  rw [same, show name.tree.map look = _ from treesName lexemes,
    show Word.mapAll look (params.tree.getD []) = _ from treesParams lexemes,
    show body.tree.map look = _ from treesBody lexemes]
  rfl

/-- A command call is relabelled in front of what ends it, which looks like an end too. -/
lemma relabels_command {name : Derivation .argument} {args : Derivation (.many .argument)}
    (ihName : name.Relabels look) (ihArgs : args.Relabels look) :
    (command name args).Relabels look := by
  intro _ _ _ _ proper alike behind
  obtain ⟨⟨ends, -⟩, properName, properArgs⟩ := proper
  obtain ⟨nameTokens, argTokens, rfl, alikeName, alikeArgs⟩ :=
    alike.split_behind (name.taken properName id)
  have behind := behind.full (by simp [name.taken properName id])
  obtain ⟨name', rfl, properName', treesName⟩ :=
    ihName trivial properName alikeName (alikeArgs.append_all behind).of_all
  obtain ⟨args', rfl, properArgs', treesArgs⟩ :=
    ihArgs id properArgs alikeArgs.of_all behind.of_all
  refine ⟨.command name' args', rfl,
    ⟨⟨(behind.startsWith kinds).1 ends, trivial⟩, properName', properArgs'⟩, fun lexemes => ?_⟩
  exact congrArg₂ Statement.command (treesName lexemes) (mapAll_of_same (treesArgs lexemes))

/-- What looks like separators are separators. -/
lemma relabels_separated {separators : List Token} {statement : Derivation .statement}
    (ih : statement.Relabels look) : (separated separators statement).Relabels look := by
  intro _ _ _ _ proper alike behind
  obtain ⟨⟨separates, -⟩, properStatement⟩ := proper
  obtain ⟨separators', _, rfl, alikeSeparators, alikeStatement⟩ := alike.split
  obtain ⟨statement', rfl, proper', trees⟩ :=
    ih trivial properStatement (alikeStatement.weaken nofun) (behind.weaken (by simp +contextual))
  exact ⟨.separated separators' statement', rfl,
    ⟨⟨alikeSeparators.all_kind kinds separates, trivial⟩, proper'⟩, trees⟩

/-- What is left behind statements looks like separators too. -/
lemma relabels_statements {body : Derivation (.many .separated)} {separators : List Token}
    (ih : body.Relabels look) : (statements body separators).Relabels look := by
  intro _ _ _ _ proper alike behind
  obtain ⟨⟨separates, -⟩, properBody⟩ := proper
  obtain ⟨bodyTokens, separators', rfl, alikeBody, alikeSeparators⟩ := alike.split
  have taken : (Symbol.statements.Near ∨ body.tokens ≠ []) ∨ separators ≠ [] →
      (statements body separators).tokens ≠ [] := by
    rintro ((none | filled) | filled)
    · exact none.elim
    · simp [filled]
    · simp [filled]
  obtain ⟨body', rfl, proper', trees⟩ :=
    ih id properBody (alikeBody.weaken nofun)
      ((alikeSeparators.append (behind.weaken taken)).weaken .inr)
  exact ⟨.statements body' separators', rfl,
    ⟨⟨alikeSeparators.all_kind kinds separates, trivial⟩, proper'⟩,
    fun lexemes => body_of_same (trees lexemes)⟩

/-- What looks like the marker at the end is one. -/
lemma relabels_script {body : Derivation .statements} {marker : Token} (ih : body.Relabels look) :
    (script body marker).Relabels look := by
  intro _ _ _ _ proper alike behind
  obtain ⟨⟨ends, -⟩, properBody⟩ := proper
  obtain ⟨bodyTokens, _, rfl, alikeBody, rest⟩ := alike.split
  obtain ⟨⟩ | ⟨same, spaced, ⟨⟩⟩ := rest
  rename_i t
  obtain ⟨body', rfl, proper', trees⟩ := ih trivial properBody (alikeBody.weaken nofun)
    (.cons same (fun filled => spaced (.inr filled)) (behind.weaken (by simp)))
  exact ⟨.script body' t, rfl, ⟨⟨(kinds same).symm.trans ends, trivial⟩, proper'⟩, trees⟩

/-- Every derivation can be relabelled, from back to front: a part is proper in front of the parts that
were made behind it. -/
lemma relabels (d : Derivation symbol) : d.Relabels look := by
  induction d with
  | literal _ => exact relabels_literal kinds
  | substitution _ _ ih => exact relabels_substitution kinds ih
  | reference _ _ ih => exact relabels_reference kinds ih
  | callTail _ _ _ _ ihName ihArgs => exact relabels_callTail kinds ihName ihArgs
  | vectorCall _ _ ih => exact relabels_vectorCall kinds ih
  | vectorReference _ _ ih => exact relabels_vectorReference kinds ih
  | plain _ ih => exact relabels_plain ih
  | adjacent _ ih => exact relabels_adjacent ih
  | argument _ _ ihFirst ihRest => exact relabels_argument kinds ihFirst ihRest
  | noParameters => exact relabels_noParameters
  | parameters _ _ _ ih => exact relabels_parameters kinds ih
  | block _ _ _ ih => exact relabels_block kinds ih
  | control _ _ _ _ ihName ihParams ihBody => exact relabels_control kinds ihName ihParams ihBody
  | command _ _ ihName ihArgs => exact relabels_command kinds ihName ihArgs
  | separated _ _ ih => exact relabels_separated kinds ih
  | statements _ _ ih => exact relabels_statements kinds ih
  | script _ _ ih => exact relabels_script kinds ih
  | nil => exact relabels_nil
  | cons _ _ ihFirst ihRest => exact relabels_cons ihFirst ihRest

/-- Tokens that look alike have derivations of the same form. -/
theorem relabel {symbol : Symbol} (d : Derivation symbol) (solid : symbol.Solid)
    (proper : d.Proper next) (alike : Alike look symbol.Near d.tokens tokens')
    (behind : Alike look (d.tokens ≠ []) next next') :
    ∃ d' : Derivation symbol, d'.tokens = tokens' ∧ d'.Proper next' ∧
      ((∀ {t t' : Token}, look t = look t' → t.lexeme = t'.lexeme) →
        symbol.Same look d.tree d'.tree) :=
  d.relabels kinds solid proper alike behind

end

end Derivation

end Scriptlet.Grammar
