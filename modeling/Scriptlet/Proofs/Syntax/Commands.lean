import Scriptlet.Proofs.Lexer.Spelling
import Scriptlet.Proofs.Syntax.Acceptance
import Scriptlet.Proofs.Syntax.Neighbours

/-!
# Where commands stand

The commands of a tree are the commands of its derivation, and each of them stands somewhere among
the tokens (`Inside`): in no parentheses, between the tokens in front of it and a token that ends
commands. A literal starts a command if a separator or a brace comes before it.
-/

namespace Scriptlet

namespace Statement

variable {α : Type}

mutual

/-- The commands in the statement with their arguments, in order. -/
def commands : Statement α → List (Word α × List (Word α))
  | .command name args => [(name, args)]
  | .control _ _ _ body => body.commands
  | .block _ body => allCommands body

/-- The commands in the statements with their arguments, in order. -/
def allCommands : List (Statement α) → List (Word α × List (Word α))
  | [] => []
  | statement :: statements => statement.commands ++ allCommands statements

end

/-- The commands in statements are those in each of them. -/
lemma allCommands_eq (body : List (Statement α)) : allCommands body = body.flatMap commands := by
  induction body with
  | nil => rfl
  | cons s body ih => rw [allCommands, ih, List.flatMap_cons]

end Statement

/-- The literal that a token is read as. -/
def Token.toWord (t : Token) : Word Token :=
  .literal t t.lexeme

namespace Grammar

/-- The commands in what is read where the symbol is derived. -/
def Symbol.commands : (symbol : Symbol) → symbol.Value → List (Word Token × List (Word Token))
  | statement, s | separated, s => s.commands
  | statements, body | script, body => Statement.allCommands body
  | many symbol, values => values.flatMap symbol.commands
  | name, _ | callTail, _ | piece, _ | adjacentPiece, _ | argument, _ | parameters, _ => []

/-- The kinds of the tokens of words. -/
def wordKinds : List TokenKind :=
  [.literal, .quoted, .dollar, .vector, .openParen, .closeParen]

/-- The kinds of the tokens that end commands. -/
def enderKinds : List TokenKind :=
  [.separator, .closeBrace, .endMarker]

/-- The kinds of the tokens behind which a literal starts a command. -/
def leaderKinds : List TokenKind :=
  [.separator, .openBrace, .closeBrace]

/-- The brackets that are open behind the tokens, if these are open in front of them. -/
def nestAll (brackets : List Bracket) (tokens : List Token) : List Bracket :=
  tokens.foldl (fun brackets token => token.kind.nest brackets) brackets

/-- The command with this name and these arguments stands in the derivation, between the tokens in
front of it and those behind it. -/
inductive Inside (name : Derivation .argument) (args : Derivation (.many .argument)) :
    ∀ {symbol : Symbol}, Derivation symbol → (front back : List Token) → Prop
  | command :
    Inside name args (.command name args) [] []
  | block {opener closer body front back} :
    Inside name args body front back →
    Inside name args (.block opener body closer) (opener :: front) (back ++ [closer])
  | control {sigil called params body front back} :
    Inside name args body front back →
    Inside name args (.control sigil called params body)
      (sigil :: (called.tokens ++ (params.tokens ++ front))) back
  | separated {separators statement front back} :
    Inside name args statement front back →
    Inside name args (.separated separators statement) (separators ++ front) back
  | statements {body separators front back} :
    Inside name args body front back →
    Inside name args (.statements body separators) front (back ++ separators)
  | script {body marker front back} :
    Inside name args body front back →
    Inside name args (.script body marker) front (back ++ [marker])
  | first {symbol front back} {first : Derivation symbol} {rest : Derivation (.many symbol)} :
    Inside name args first front back →
    Inside name args (.cons first rest) front (back ++ rest.tokens)
  | rest {symbol front back} {first : Derivation symbol} {rest : Derivation (.many symbol)} :
    Inside name args rest front back →
    Inside name args (.cons first rest) (first.tokens ++ front) back

section Tokens

variable {symbol : Symbol} {brackets : List Bracket} {token : Token}
  {tokens front later next : List Token}

/-- No tokens leave the brackets as they are. -/
@[simp]
lemma nestAll_nil : nestAll brackets [] = brackets :=
  rfl

/-- Brackets are followed token by token. -/
@[simp]
lemma nestAll_cons :
    nestAll brackets (token :: tokens) = nestAll (token.kind.nest brackets) tokens :=
  rfl

/-- Brackets are followed through a front and then through what comes later. -/
@[simp]
lemma nestAll_append :
    nestAll brackets (front ++ later) = nestAll (nestAll brackets front) later :=
  List.foldl_append

/-- Tokens of most kinds are no brackets. -/
lemma nestAll_flat (flat : ∀ t ∈ tokens, t.kind.nest = id) :
    nestAll brackets tokens = brackets := by
  induction tokens with
  | nil => rfl
  | cons t tokens ih =>
    obtain ⟨first, rest⟩ := List.forall_mem_cons.1 flat
    rw [nestAll_cons, first]
    exact ih rest

/-- Separators open and close nothing. -/
lemma nest_separators (kinds : ∀ t ∈ tokens, t.kind = .separator) :
    nestAll brackets tokens = brackets :=
  nestAll_flat fun t inside => by rw [kinds t inside]; rfl

namespace Derivation

/-- The brackets of a derivation are closed where they are opened. -/
lemma nests (d : Derivation symbol) (proper : d.Proper next) (brackets : List Bracket) :
    nestAll brackets d.tokens = brackets := by
  induction d generalizing next brackets with
  | literal t =>
    obtain kind | kind := isLiteral_iff.1 proper.1
    all_goals simp [kind, TokenKind.nest]
  | substitution sigil tail ih =>
    have kind : sigil.kind = .dollar := proper.1.1
    simpa [kind, TokenKind.nest] using ih proper.2 brackets
  | reference sigil name ih =>
    have kind : sigil.kind = .dollar := proper.1.1.1
    simpa [kind, TokenKind.nest] using ih proper.2 brackets
  | callTail opener name args closer ihName ihArgs =>
    obtain ⟨⟨⟨opens, -, closes⟩, -⟩, properName, properArgs⟩ := proper
    simp [opens, closes, TokenKind.nest, ihName properName, ihArgs properArgs]
  | vectorCall sigil tail ih =>
    have kind : sigil.kind = .vector := proper.1.1
    simpa [kind, TokenKind.nest] using ih proper.2 brackets
  | vectorReference sigil name ih =>
    have kind : sigil.kind = .vector := proper.1.1.1
    simpa [kind, TokenKind.nest] using ih proper.2 brackets
  | plain name ih => exact ih proper.2 brackets
  | adjacent piece ih => exact ih proper.2 brackets
  | argument first rest ihFirst ihRest =>
    simp [ihFirst proper.2.1, ihRest proper.2.2]
  | noParameters => rfl
  | parameters opener args closer ih =>
    obtain ⟨⟨⟨opens, closes⟩, -⟩, properArgs⟩ := proper
    simp [opens, closes, TokenKind.nest, ih properArgs]
  | block opener body closer ih =>
    obtain ⟨⟨⟨opens, closes⟩, -⟩, properBody⟩ := proper
    simp [opens, closes, TokenKind.nest, ih properBody]
  | control sigil name params body ihName ihParams ihBody =>
    obtain ⟨⟨⟨kind, -⟩, -⟩, properName, properParams, properBody⟩ := proper
    simp [kind, TokenKind.nest, ihName properName, ihParams properParams, ihBody properBody]
  | command name args ihName ihArgs =>
    simp [ihName proper.2.1, ihArgs proper.2.2]
  | separated separators statement ih =>
    simp [nest_separators proper.1.1, ih proper.2]
  | statements body separators ih =>
    simp [nest_separators proper.1.1, ih proper.2]
  | script body marker ih =>
    have kind : marker.kind = .endMarker := proper.1.1
    simp [kind, TokenKind.nest, ih proper.2]
  | nil => rfl
  | cons first rest ihFirst ihRest =>
    simp [ihFirst proper.2.1, ihRest proper.2.2]

/-- Words are made of tokens of a few kinds. -/
lemma word_kinds (d : Derivation symbol) (word : ¬ symbol.Stated) (proper : d.Proper next) :
    ∀ t ∈ d.tokens, t.kind ∈ wordKinds := by
  induction d generalizing next with
  | literal t =>
    obtain kind | kind := isLiteral_iff.1 proper.1
    all_goals simp [kind, wordKinds]
  | substitution sigil tail ih =>
    have kind : sigil.kind = .dollar := proper.1.1
    exact List.forall_mem_cons.2 ⟨by simp [kind, wordKinds], ih id proper.2⟩
  | reference sigil name ih =>
    have kind : sigil.kind = .dollar := proper.1.1.1
    exact List.forall_mem_cons.2 ⟨by simp [kind, wordKinds], ih id proper.2⟩
  | callTail opener name args closer ihName ihArgs =>
    obtain ⟨⟨⟨opens, -, closes⟩, -⟩, properName, properArgs⟩ := proper
    rw [tokens, List.forall_mem_cons, List.forall_mem_append, List.forall_mem_append]
    exact ⟨by simp [opens, wordKinds], ihName id properName, ihArgs id properArgs,
      by simp [closes, wordKinds]⟩
  | vectorCall sigil tail ih =>
    have kind : sigil.kind = .vector := proper.1.1
    exact List.forall_mem_cons.2 ⟨by simp [kind, wordKinds], ih id proper.2⟩
  | vectorReference sigil name ih =>
    have kind : sigil.kind = .vector := proper.1.1.1
    exact List.forall_mem_cons.2 ⟨by simp [kind, wordKinds], ih id proper.2⟩
  | plain name ih => exact ih id proper.2
  | adjacent piece ih => exact ih id proper.2
  | argument first rest ihFirst ihRest =>
    exact List.forall_mem_append.2 ⟨ihFirst id proper.2.1, ihRest id proper.2.2⟩
  | noParameters => exact fun _ inside => absurd inside List.not_mem_nil
  | parameters opener args closer ih =>
    obtain ⟨⟨⟨opens, closes⟩, -⟩, properArgs⟩ := proper
    rw [tokens, List.forall_mem_cons, List.forall_mem_append]
    exact ⟨by simp [opens, wordKinds], ih id properArgs, by simp [closes, wordKinds]⟩
  | block | control | command | separated | statements | script => exact absurd trivial word
  | nil => exact fun _ inside => absurd inside List.not_mem_nil
  | cons first rest ihFirst ihRest =>
    exact List.forall_mem_append.2 ⟨ihFirst word proper.2.1, ihRest word proper.2.2⟩

end Derivation

/-- Where two lists are put together, each element is in one of them. -/
lemma split_cases {first rest : List Token} (split : first ++ rest = front ++ token :: later) :
    (∃ more, first = front ++ token :: more ∧ later = more ++ rest) ∨
      ∃ more, front = first ++ more ∧ rest = more ++ token :: later := by
  obtain ⟨more, here, there⟩ | ⟨more, here, there⟩ := List.append_eq_append_iff.1 split
  · exact .inr ⟨more, here, there⟩
  · cases more with
    | nil => exact .inr ⟨[], by rw [here, List.append_nil, List.append_nil], there.symm⟩
    | cons t more =>
      cases there
      exact .inl ⟨more, here, rfl⟩

/-- The same, for an element that cannot be in the first list. -/
lemma split_behind {first rest : List Token} {kind : TokenKind}
    (kinds : ∀ t ∈ first, t.kind = kind) (other : token.kind ≠ kind)
    (split : first ++ rest = front ++ token :: later) :
    ∃ more, front = first ++ more ∧ rest = more ++ token :: later := by
  refine (split_cases split).resolve_left ?_
  rintro ⟨more, rfl, -⟩
  exact other (kinds token (by simp))

/-- The same, for an element that cannot be in the second list. -/
lemma split_before {first rest : List Token} {kind : TokenKind}
    (kinds : ∀ t ∈ rest, t.kind = kind) (other : token.kind ≠ kind)
    (split : first ++ rest = front ++ token :: later) : ∃ more, first = front ++ token :: more := by
  obtain ⟨more, here, -⟩ | ⟨more, -, rfl⟩ := split_cases split
  · exact ⟨more, here⟩
  · exact absurd (kinds token (by simp)) other

/-- If the last of the tokens allows it, a literal behind them starts a command. -/
def Leads (front : List Token) : Prop :=
  ∀ t ∈ front.getLast?, t.kind ∈ leaderKinds

/-- Whether a literal starts a command is up to the last of the tokens in front of it. -/
lemma Leads.suffix (leads : Leads (front ++ later)) : Leads later := by
  intro t last
  cases later with
  | nil => cases last
  | cons u later =>
    refine leads t ?_
    rwa [List.getLast?_append_of_ne_nil _ (List.cons_ne_nil u later)]

/-- Where none of the tokens can stand in front of a command, nothing does. -/
lemma Leads.eq_nil (leads : Leads front) (others : ∀ t ∈ front ++ later, t.kind ∉ leaderKinds) :
    front = [] := by
  cases front using List.reverseRecOn with
  | nil => rfl
  | append_singleton front t =>
    have leader : t.kind ∈ leaderKinds := leads t (by simp)
    exact absurd leader (others t (by simp))

/-- No word leads to a command. -/
lemma Derivation.no_leader (d : Derivation symbol) (word : ¬ symbol.Stated)
    (proper : d.Proper next) : ∀ t ∈ d.tokens, t.kind ∉ leaderKinds := by
  have apart : ∀ kind ∈ wordKinds, kind ∉ leaderKinds := by decide
  exact fun t mem => apart _ (d.word_kinds word proper t mem)

end Tokens

namespace Inside

variable {symbol : Symbol} {d : Derivation symbol} {name : Derivation .argument}
  {args : Derivation (.many .argument)} {front back next : List Token}

/-- The tokens around a command, and its own. -/
lemma tokens (inside : Inside name args d front back) :
    d.tokens = front ++ (name.tokens ++ (args.tokens ++ back)) := by
  induction inside with
  | command => simp
  | block _ ih | control _ ih | separated _ ih | statements _ ih | script _ ih | first _ ih
  | rest _ ih => simp [ih]

/-- A command stands in front of a token that ends it. -/
lemma proper (inside : Inside name args d front back) (whole : d.Proper next) :
    name.Proper (args.tokens ++ (back ++ next)) ∧ args.Proper (back ++ next) ∧
      StartsWith enderKinds (back ++ next) := by
  induction inside generalizing next with
  | command =>
    obtain ⟨⟨ends, -⟩, properName, properArgs⟩ := whole
    exact ⟨properName, properArgs, ends⟩
  | block _ ih | statements _ ih | script _ ih =>
    rw [List.append_assoc]
    exact ih whole.2
  | control _ ih => exact ih whole.2.2.2
  | separated _ ih => exact ih whole.2
  | first _ ih =>
    rw [List.append_assoc]
    exact ih whole.2.1
  | rest _ ih => exact ih whole.2.2

/-- A command of the derivation is a command of its tree. -/
lemma mem (inside : Inside name args d front back) :
    (name.tree, args.tree) ∈ symbol.commands d.tree := by
  induction inside with
  | command => exact List.mem_singleton_self _
  | block _ ih | control _ ih | separated _ ih | script _ ih => exact ih
  | statements _ ih =>
    show _ ∈ Statement.allCommands _
    rw [Statement.allCommands_eq]
    exact ih
  | first _ ih => exact List.mem_append_left _ ih
  | rest _ ih => exact List.mem_append_right _ ih

/-- No command stands in parentheses. -/
lemma brackets (inside : Inside name args d front back) (whole : d.Proper next)
    {brackets : List Bracket} (outside : brackets.head? ≠ some .paren) :
    (nestAll brackets front).head? ≠ some .paren := by
  induction inside generalizing next brackets with
  | command => exact outside
  | block _ ih =>
    rw [nestAll_cons, whole.1.1.1]
    exact ih whole.2 (by simp [TokenKind.nest])
  | control _ ih =>
    obtain ⟨⟨⟨kind, -⟩, -⟩, properName, properParams, properBody⟩ := whole
    rw [nestAll_cons, nestAll_append, nestAll_append, kind]
    rw [Derivation.nests _ properName, Derivation.nests _ properParams]
    exact ih properBody outside
  | separated _ ih =>
    rw [nestAll_append, nest_separators whole.1.1]
    exact ih whole.2 outside
  | statements _ ih | script _ ih => exact ih whole.2 outside
  | first _ ih => exact ih whole.2.1 outside
  | rest _ ih =>
    rw [nestAll_append, Derivation.nests _ whole.2.1]
    exact ih whole.2.2 outside

end Inside

namespace Derivation

variable {symbol : Symbol} {token : Token} {front later next : List Token}

/-- Every command of the tree stands in the derivation. -/
lemma exists_inside (d : Derivation symbol) {call : Word Token × List (Word Token)}
    (listed : call ∈ symbol.commands d.tree) :
    ∃ name args front back, Inside name args d front back ∧ (name.tree, args.tree) = call := by
  induction d with
  | command name args =>
    obtain rfl := List.mem_singleton.1 listed
    exact ⟨name, args, [], [], .command, rfl⟩
  | block opener body closer ih =>
    obtain ⟨name, args, front, back, inside, same⟩ := ih listed
    exact ⟨name, args, _, _, .block inside, same⟩
  | control sigil called params body _ _ ih =>
    obtain ⟨name, args, front, back, inside, same⟩ := ih listed
    exact ⟨name, args, _, _, .control inside, same⟩
  | separated separators statement ih =>
    obtain ⟨name, args, front, back, inside, same⟩ := ih listed
    exact ⟨name, args, _, _, .separated inside, same⟩
  | statements body separators ih =>
    have listed : call ∈ Statement.allCommands body.tree := listed
    rw [Statement.allCommands_eq] at listed
    obtain ⟨name, args, front, back, inside, same⟩ := ih listed
    exact ⟨name, args, _, _, .statements inside, same⟩
  | script body marker ih =>
    obtain ⟨name, args, front, back, inside, same⟩ := ih listed
    exact ⟨name, args, _, _, .script inside, same⟩
  | cons first rest ihFirst ihRest =>
    obtain here | later := List.mem_append.1 listed
    · obtain ⟨name, args, front, back, inside, same⟩ := ihFirst here
      exact ⟨name, args, _, _, .first inside, same⟩
    · obtain ⟨name, args, front, back, inside, same⟩ := ihRest later
      exact ⟨name, args, _, _, .rest inside, same⟩
  | literal | substitution | reference | callTail | vectorCall | vectorReference | plain | adjacent
  | argument | noParameters | parameters | nil => exact absurd listed List.not_mem_nil

/-- A literal starts a command if it starts the statements, or if a separator or a brace comes
before it. -/
lemma starts_inside (d : Derivation symbol) (stated : symbol.Stated) (proper : d.Proper next)
    (split : d.tokens = front ++ token :: later) (literal : token.kind = .literal)
    (leads : Leads front) :
    ∃ name args back, Inside name args d front back := by
  -- along the derivation, into the part in which the literal stands: what leads to it there still
  -- does
  induction d generalizing front later next with
  | literal | substitution | reference | callTail | vectorCall | vectorReference | plain | adjacent
  | argument | noParameters | parameters => exact stated.elim
  | nil => simp at split
  | block opener body closer ih =>
    obtain ⟨⟨⟨opens, closes⟩, -⟩, proper⟩ := proper
    have whole : [opener] ++ (body.tokens ++ [closer]) = front ++ token :: later := split
    obtain ⟨more, rfl, inner⟩ :=
      split_behind (List.forall_mem_singleton.2 opens) (by simp [literal]) whole
    obtain ⟨_, inner⟩ :=
      split_before (List.forall_mem_singleton.2 closes) (by simp [literal]) inner
    obtain ⟨name, args, back, inside⟩ := ih trivial proper inner leads.suffix
    exact ⟨name, args, _, .block inside⟩
  | control sigil called params body _ _ ih =>
    obtain ⟨⟨⟨kind, -⟩, -⟩, properCalled, properParams, proper⟩ := proper
    have others : ∀ t ∈ sigil :: (called.tokens ++ params.tokens), t.kind ∉ leaderKinds := by
      rw [List.forall_mem_cons, List.forall_mem_append, kind]
      exact ⟨by decide, called.no_leader id properCalled, params.no_leader id properParams⟩
    have whole : (sigil :: (called.tokens ++ params.tokens)) ++ body.tokens =
        front ++ token :: later := by simpa using split
    obtain ⟨more, here, -⟩ | ⟨more, rfl, inner⟩ := split_cases whole
    · -- the literal is a word of the call, and no statement starts behind a bang
      obtain rfl := leads.eq_nil (here ▸ others)
      cases here
      cases literal.symm.trans kind
    · obtain ⟨name, args, back, inside⟩ := ih trivial proper inner leads.suffix
      have stands : Inside name args (.control sigil called params body) _ back := .control inside
      exact ⟨name, args, back, by simpa using stands⟩
  | command name args =>
    have others : ∀ t ∈ (command name args).tokens, t.kind ∉ leaderKinds :=
      List.forall_mem_append.2 ⟨name.no_leader id proper.2.1, args.no_leader id proper.2.2⟩
    rw [split] at others
    obtain rfl := leads.eq_nil others
    exact ⟨name, args, [], .command⟩
  | separated separators statement ih =>
    obtain ⟨⟨kinds, -⟩, proper⟩ := proper
    obtain ⟨more, rfl, inner⟩ := split_behind kinds (by simp [literal]) split
    obtain ⟨name, args, back, inside⟩ := ih trivial proper inner leads.suffix
    exact ⟨name, args, back, .separated inside⟩
  | statements body separators ih =>
    obtain ⟨⟨kinds, -⟩, proper⟩ := proper
    obtain ⟨_, inner⟩ := split_before kinds (by simp [literal]) split
    obtain ⟨name, args, back, inside⟩ := ih trivial proper inner leads
    exact ⟨name, args, _, .statements inside⟩
  | script body marker ih =>
    obtain ⟨⟨kind, -⟩, proper⟩ := proper
    obtain ⟨_, inner⟩ := split_before (List.forall_mem_singleton.2 kind) (by simp [literal]) split
    obtain ⟨name, args, back, inside⟩ := ih trivial proper inner leads
    exact ⟨name, args, _, .script inside⟩
  | cons first rest ihFirst ihRest =>
    obtain ⟨_, here, -⟩ | ⟨more, rfl, inner⟩ := split_cases split
    · obtain ⟨name, args, back, inside⟩ := ihFirst stated proper.2.1 here leads
      exact ⟨name, args, _, .first inside⟩
    · obtain ⟨name, args, back, inside⟩ := ihRest stated proper.2.2 inner leads.suffix
      exact ⟨name, args, back, .rest inside⟩

end Derivation

end Grammar

end Scriptlet
