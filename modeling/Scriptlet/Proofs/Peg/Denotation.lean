import Scriptlet.Proofs.Peg.Termination
import Scriptlet.Proofs.Syntax.Rules

/-!
# What expressions denote

An expression denotes a rule, given what the names in it do. The rules of the grammar are what their
bodies denote (`Name.grammar_eq`).
-/

namespace Scriptlet

/-- The result with another value. -/
def Step.map {α β : Type} (f : α → β) : Step α → Step β
  | done value rest => .done (f value) rest
  | absent => .absent
  | failed error => .failed error

namespace Rule

instance : LawfulMonad Rule :=
  LawfulMonad.mk' Rule
    (fun rule => by
      funext tokens
      show andThen rule _ tokens = _
      rw [andThen]
      cases rule tokens <;> rfl)
    (fun _ _ => rfl)
    (fun rule first second => by
      funext tokens
      show andThen (andThen rule _) _ tokens = andThen rule _ tokens
      rw [andThen, andThen, andThen]
      cases rule tokens <;> rfl)

variable {α β : Type}

/-- The rule; that it is absent is a fault that the next token decides on. -/
def orFail (fault : Option Token → GrammarFault) (rule : Rule α) : Rule α := fun tokens =>
  match rule tokens with
  | .absent => fail (fault tokens.head?) tokens
  | step => step

/-- Whether the rule is ahead. -/
def ahead (rule : Rule α) : Rule Unit := fun tokens =>
  match rule tokens with
  | .done _ _ => .done () tokens
  | .absent => .absent
  | .failed error => .failed error

/-- To fail with an expectation is to be committed to it. -/
lemma orFail_expected (what : Expectation) (rule : Rule α) :
    orFail (.expected what) rule = commit what rule := by
  funext tokens
  cases step : rule tokens <;> simp [orFail, commit, step]

/-- A map over a rule is one over its result. -/
lemma map_apply (f : α → β) (rule : Rule α) (tokens : List Token) :
    (f <$> rule) tokens = (rule tokens).map f := by
  show andThen rule _ tokens = _
  rw [andThen]
  cases rule tokens <;> rfl

section

variable {rule : Rule α} {next : α → Rule β} {tokens : List Token}

/-- A rule that is done is followed by the next. -/
lemma bind_done {value : α} {rest : List Token} (done : rule tokens = .done value rest) :
    (rule >>= next) tokens = next value rest := by
  show andThen rule next tokens = _
  rw [andThen, done]

/-- Nothing follows a rule that is absent. -/
lemma bind_absent (absent : rule tokens = .absent) : (rule >>= next) tokens = .absent := by
  show andThen rule next tokens = _
  rw [andThen, absent]

/-- Nothing follows a rule that fails. -/
lemma bind_failed {error : ParseError} (failed : rule tokens = .failed error) :
    (rule >>= next) tokens = .failed error := by
  show andThen rule next tokens = _
  rw [andThen, failed]

end

/-- A map over a choice is one over both of its sides. -/
lemma map_or (f : α → β) (rule other : Rule α) :
    f <$> rule.or other = (f <$> rule).or (f <$> other) := by
  funext tokens
  rw [map_apply, Rule.or, Rule.or, map_apply, map_apply]
  cases rule tokens <;> rfl

/-- A choice of three does not depend on the brackets. -/
lemma or_assoc (first second third : Rule α) :
    (first.or second).or third = first.or (second.or third) := by
  funext tokens
  rw [Rule.or, Rule.or, Rule.or]
  cases first tokens <;> rfl

end Rule

namespace Peg

open Rule

namespace Expr

/-- The rule that the expression denotes, with so much room to nest. -/
@[simp]
def denote (limit : Nat) (rules : (room : Nat) → {s : Shape} → Name s → Rule s.Value) :
    (room : Nat) → {s : Shape} → Expr s → Rule s.Value
  | _, _, token kind => Rule.token kind
  | room, _, map body f => f <$> denote limit rules room body
  | room, _, pair first second => do
    let value ← denote limit rules room first
    let other ← denote limit rules room second
    pure (value, other)
  | room, _, or first second =>
    (denote limit rules room first).or (denote limit rules room second)
  | room, _, zeroOrMore body => many (denote limit rules room body)
  | room, _, maybe body => optional (denote limit rules room body)
  | room, _, adjacent body => Rule.adjacent (denote limit rules room body)
  | room, _, commit fault body => orFail fault (denote limit rules room body)
  | 0, _, nested _ => fail (.nesting limit)
  | room + 1, _, nested body => denote limit rules room body
  | room, _, lookahead body => ahead (denote limit rules room body)
  | room, _, rule name => rules room name

end Expr

open Grammar in
/-- The rules of the grammar. -/
def Name.grammar (limit room : Nat) : {s : Shape} → Name s → Rule s.Value
  | _, file => script limit room
  | _, interactive => single limit room
  | _, statements => Grammar.statements (statementAt limit room)
  | _, statement => statementAt limit room
  | _, block => Grammar.block (statementAt limit room)
  | _, control => Grammar.control (argumentAt limit room) (statementAt limit room)
  | _, command => Grammar.command (argumentAt limit room)
  | _, endOfCommand => Grammar.endOfCommand
  | _, argument => argumentAt limit room
  | _, piece => pieceAt limit room
  | _, namePiece => Grammar.name (nameAt limit room) (argumentAt limit room)
  | _, literal => Grammar.literal
  | _, substitution => Grammar.substitution (argumentAt limit room)
  | _, callTail => Grammar.callTail (argumentAt limit room)
  | _, reference => Grammar.reference (nameAt limit room)
  | _, vectorExpansion => Grammar.vector (nameAt limit room) (argumentAt limit room)

section Denote

variable {limit room : Nat} {rules : (room : Nat) → {s : Shape} → Name s → Rule s.Value}
  {s t : Shape}

/-- The first of two in turn, run for the value of the first. -/
@[simp] lemma denote_left (first : Expr s) (second : Expr t) :
    (first.left second).denote limit rules room =
      (do
        let value ← first.denote limit rules room
        let _ ← second.denote limit rules room
        pure value) := by
  simp [Expr.left]

/-- Two in turn, run for the value of the second. -/
@[simp] lemma denote_right (first : Expr s) (second : Expr t) :
    (first.right second).denote limit rules room =
      (do
        let _ ← first.denote limit rules room
        second.denote limit rules room) := by
  simp [Expr.right]

/-- A cut denotes a commitment. -/
@[simp] lemma denote_cut (body : Expr s) (what : Expectation) :
    (body.cut what).denote limit rules room = commit what (body.denote limit rules room) := by
  rw [Expr.cut, Expr.denote, orFail_expected]

/-- Arguments up to a parenthesis, as the grammar has them. -/
@[simp] lemma denote_closedArguments :
    Expr.closedArguments.denote limit rules room =
      (do
        let args ← many (rules room .argument)
        let _ ← commit .argumentOrParen (Rule.token .closeParen)
        pure args) := by
  rw [Expr.closedArguments, denote_left, denote_cut]
  rfl

/-- Separators are passed over up to the first other token. -/
lemma manyFor_separator {clock tokens : List Token} (enough : tokens.length ≤ clock.length) :
    (manyFor (Rule.token .separator) clock tokens).map (fun _ => ()) =
      .done () (tokens.dropWhile fun t => t.kind = .separator) := by
  induction tokens generalizing clock with
  | nil => cases clock <;> rfl
  | cons t tokens ih =>
    cases clock with
    | nil => cases enough
    | cons tick clock =>
      have more := ih (Nat.le_of_succ_le_succ enough)
      by_cases kind : t.kind = .separator
      · rw [manyFor, Rule.token, if_pos kind, List.dropWhile_cons_of_pos (by simpa using kind), ← more]
        dsimp only
        cases manyFor (Rule.token .separator) clock tokens <;> rfl
      · rw [manyFor, Rule.token, if_neg kind, List.dropWhile_cons_of_neg (by simpa using kind)]
        rfl

/-- Separators are tokens that are repeated. -/
lemma separators_eq : Grammar.separators = (fun _ => ()) <$> many (Rule.token .separator) := by
  funext tokens
  rw [map_apply, many, manyFor_separator (Nat.le_refl _), Grammar.separators]

/-- The body of the rule for statements denotes that of the grammar. -/
lemma denote_statements :
    Name.statements.body.denote limit rules room = Grammar.statements (rules room .statement) := by
  simp [Expr.separated, Expr.separator, separators_eq, Grammar.statements, Grammar.separated]

/-- The body of the rule for blocks denotes that of the grammar, if statements do. -/
lemma denote_block (stated : rules room .statements = Grammar.statements (rules room .statement)) :
    Name.block.body.denote limit rules room = Grammar.block (rules room .statement) := by
  simp [Grammar.block, stated]

/-- The same for control calls. -/
lemma denote_control :
    Name.control.body.denote limit rules room =
      Grammar.control (rules room .argument) (rules room .statement) := by
  simp [Grammar.control, Grammar.parenthesized]

/-- The same for commands, if the end of a command does. -/
lemma denote_command (ended : rules room .endOfCommand = Grammar.endOfCommand) :
    Name.command.body.denote limit rules room = Grammar.command (rules room .argument) := by
  simp [Grammar.command, ended]

/-- The same for the end of a command. -/
lemma denote_endOfCommand : Name.endOfCommand.body.denote limit rules room = Grammar.endOfCommand := by
  funext tokens
  rw [Name.body, Expr.denote, orFail, Expr.denote, Expr.denote]
  cases tokens with
  | nil => rfl
  | cons t tokens =>
    cases kind : t.kind <;>
      simp [Rule.or, ahead, Rule.token, kind, Grammar.endOfCommand, Expr.separator, unended]

/-- The same for arguments. -/
lemma denote_argument :
    Name.argument.body.denote limit rules room = Grammar.argument (rules room .piece) := by
  simp [Expr.adjacentPiece, Grammar.argument]

/-- The same for literals. -/
lemma denote_literal : Name.literal.body.denote limit rules room = Grammar.literal := by
  funext tokens
  cases tokens with
  | nil => rfl
  | cons t tokens =>
    rw [Name.body, Expr.denote, map_apply]
    cases kind : t.kind <;> simp [Rule.or, Rule.token, kind, Grammar.literal, Step.map]

/-- The same for substitutions, if the tail of a call does. -/
lemma denote_substitution
    (tailed : rules room .callTail = Grammar.callTail (rules room .argument)) :
    Name.substitution.body.denote limit rules room = Grammar.substitution (rules room .argument) := by
  simp [Grammar.substitution, tailed]

/-- The same for the tail of a call. -/
lemma denote_callTail :
    Name.callTail.body.denote limit rules room = Grammar.callTail (rules room .argument) := by
  simp [Grammar.callTail]

/-- The same for references, with the name that the nested piece denotes. -/
lemma denote_reference {name : Rule (Word Token)}
    (named : (Expr.nested (.rule .namePiece)).denote limit rules room = name) :
    Name.reference.body.denote limit rules room = Grammar.reference name := by
  simp [Expr.sigilName, Grammar.reference, ← named]

/-- The same for vector expansions, with a call or a name behind the mark. -/
lemma denote_vectorExpansion {name : Rule (Word Token)}
    (tailed : rules room .callTail = Grammar.callTail (rules room .argument))
    (named : (Expr.nested (.rule .namePiece)).denote limit rules room = name) :
    Name.vectorExpansion.body.denote limit rules room =
      Grammar.vector name (rules room .argument) := by
  simp [Expr.vectorTarget, Expr.sigilName, map_or, target, tailed, ← named, Grammar.vector,
    Grammar.vectorCall, Grammar.vectorReference]

end Denote

/-- A statement one level further in is the statement of the grammar at the next limit. -/
lemma nested_statement (limit room : Nat) :
    (Expr.nested (.or (.or (.rule .block) (.rule .control)) (.rule .command))).denote limit
      (Name.grammar limit) room = Grammar.statementAt limit room := by
  cases room with
  | zero => rfl
  | succ room =>
    funext tokens
    rw [Expr.denote, Expr.denote, Expr.denote, Rule.or_assoc]
    rfl

/-- A name one level further in is the name of the grammar at the next limit. -/
lemma nested_name (limit room : Nat) :
    (Expr.nested (.rule .namePiece)).denote limit (Name.grammar limit) room =
      Grammar.nameAt limit room := by
  cases room <;> rfl

/-- The rules of the grammar are what their bodies denote. -/
theorem Name.grammar_eq {s : Shape} (name : Name s) (limit room : Nat) :
    name.body.denote limit (Name.grammar limit) room = name.grammar limit room := by
  cases name with
  | file =>
    rw [Name.body, denote_left, denote_cut]
    rfl
  | interactive => simp [Expr.separator, Name.grammar, Grammar.single, separators_eq]
  | statements => exact denote_statements
  | statement => exact nested_statement limit room
  | block => exact denote_block rfl
  | control => exact denote_control
  | command => exact denote_command rfl
  | endOfCommand => exact denote_endOfCommand
  | argument => exact denote_argument
  | piece => cases room <;> rfl
  | namePiece => exact Rule.or_assoc ..
  | literal => exact denote_literal
  | substitution => exact denote_substitution rfl
  | callTail => exact denote_callTail
  | reference => exact denote_reference (nested_name limit room)
  | vectorExpansion => exact denote_vectorExpansion rfl (nested_name limit room)

end Peg

end Scriptlet
