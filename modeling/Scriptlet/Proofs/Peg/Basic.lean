import Mathlib.Tactic.Lemma
import Scriptlet.Syntax.Grammar

/-!
# The grammar as data

The rules of the grammar, written as parsing expressions, and what it is to run one. A run starts
from a cursor: the tokens that are left, and how many levels are open. A loop goes on as long as its
body succeeds and nothing bounds the rounds, and rules call each other without a bound on the calls,
so that an expression need not have a run; where it has one, it has only one (`Runs.unique`).
-/

namespace Scriptlet.Peg

open Rule (here)

/-- The kinds of values that expressions have. -/
inductive Shape where
  | token
  | word
  | statement
  | nothing
  | list (of : Shape)
  | option (of : Shape)
  | pair (first second : Shape)

/-- The values of a kind. -/
abbrev Shape.Value : Shape → Type
  | token => Token
  | word => Word Token
  | statement => Statement Token
  | nothing => Unit
  | list s => List s.Value
  | option s => Option s.Value
  | pair s t => s.Value × t.Value

/-- The names of the rules. -/
inductive Name : Shape → Type where
  | file : Name (.list .statement)
  | interactive : Name (.option .statement)
  | statements : Name (.list .statement)
  | statement : Name .statement
  | block : Name .statement
  | control : Name .statement
  | command : Name .statement
  | endOfCommand : Name .nothing
  | argument : Name .word
  | piece : Name .word
  | namePiece : Name .word
  | literal : Name .word
  | substitution : Name .word
  | callTail : Name (.pair .word (.list .word))
  | reference : Name .word
  | vectorExpansion : Name .word

/-- Parsing expressions. -/
inductive Expr : Shape → Type where
  /-- One token of the kind. -/
  | token (kind : TokenKind) : Expr .token
  /-- The expression, with another value. -/
  | map {s t : Shape} (body : Expr s) (f : s.Value → t.Value) : Expr t
  /-- One expression, then the other. -/
  | pair {s t : Shape} (first : Expr s) (second : Expr t) : Expr (.pair s t)
  /-- The first expression or, where it is absent, the second. -/
  | or {s : Shape} (first second : Expr s) : Expr s
  /-- The expression as often as it is present. -/
  | zeroOrMore {s : Shape} (body : Expr s) : Expr (.list s)
  /-- The expression, or nothing where it is absent. -/
  | maybe {s : Shape} (body : Expr s) : Expr (.option s)
  /-- The expression, if nothing separates it from what was read before. -/
  | adjacent {s : Shape} (body : Expr s) : Expr s
  /-- The expression; that it is absent is a fault that the token in front of it decides on. -/
  | commit {s : Shape} (fault : Option Token → GrammarFault) (body : Expr s) : Expr s
  /-- The expression one level deeper. -/
  | nested {s : Shape} (body : Expr s) : Expr s
  /-- Whether the expression is ahead. -/
  | lookahead {s : Shape} (body : Expr s) : Expr .nothing
  /-- What the rule with this name stands for. -/
  | rule {s : Shape} (name : Name s) : Expr s

namespace Expr

variable {s t : Shape}

/-- One expression, then the other; the value is the first. -/
def left (first : Expr s) (second : Expr t) : Expr s :=
  .map (.pair first second) Prod.fst

/-- One expression, then the other; the value is the second. -/
def right (first : Expr s) (second : Expr t) : Expr t :=
  .map (.pair first second) Prod.snd

/-- The expression; that it is absent is an error that names what was needed. -/
def cut (body : Expr s) (what : Expectation) : Expr s :=
  .commit (.expected what) body

/-- A separator. -/
def separator : Expr .token :=
  .token .separator

/-- A statement behind any number of separators. -/
def separated : Expr .statement :=
  (zeroOrMore separator).right (.rule .statement)

/-- A piece with nothing between it and what was read before. -/
def adjacentPiece : Expr .word :=
  .adjacent (.rule .piece)

/-- Arguments up to a closing parenthesis. -/
def closedArguments : Expr (.list .word) :=
  (zeroOrMore (.rule .argument)).left ((token .closeParen).cut .argumentOrParen)

/-- The name behind a sigil, one level deeper. -/
def sigilName : Expr .word :=
  .adjacent (.nested (.rule .namePiece))

/-- What a vector expands: the name and the arguments of a substitution, or a name alone. -/
def vectorTarget : Expr (.pair .word (.option (.list .word))) :=
  .or (.map (.rule .callTail) fun (name, args) => (name, some args))
    (.map (sigilName.cut .vectorTarget) fun name => (name, none))

end Expr

/-- Why a command does not end in front of the token. -/
def unended (found : Option Token) : GrammarFault :=
  match found.map Token.kind with
  | some .bang => .strayBang
  | some .caret => .strayCaret
  | _ => .unendedCommand found

/-- What a vector stands for: a substitution, if there are arguments, or else a variable. -/
def target (sigil : Token) (name : Word Token) : Option (List (Word Token)) → Word Token
  | some args => .substitution sigil name args
  | none => .reference sigil name

/-- What a name stands for. -/
@[simp]
def Name.body : {s : Shape} → Name s → Expr s
  | _, file => (Expr.rule statements).left ((Expr.token .endMarker).cut .statementOrEnd)
  | _, interactive =>
    (Expr.zeroOrMore .separator).right
      ((Expr.maybe (.rule statement)).left
        (.pair (.zeroOrMore .separator) ((Expr.token .endMarker).cut .onlyStatement)))
  | _, statements => (Expr.zeroOrMore .separated).left (.zeroOrMore .separator)
  | _, statement => .nested (.or (.or (.rule block) (.rule control)) (.rule command))
  | _, block =>
    .map (.pair (.token .openBrace)
        ((Expr.rule statements).left ((Expr.token .closeBrace).cut .statementOrBrace)))
      fun (brace, body) => .block brace body
  | _, control =>
    .map (.pair (.pair (.token .bang) ((Expr.rule argument).adjacent.cut .controlName))
        (.pair (.maybe ((Expr.token .openParen).right .closedArguments))
          ((Expr.rule statement).cut .controlBody)))
      fun ((sigil, name), args, body) => .control sigil name (args.getD []) body
  | _, command =>
    .map ((Expr.pair (.rule argument) (.zeroOrMore (.rule argument))).left (.rule endOfCommand))
      fun (name, args) => .command name args
  | _, endOfCommand =>
    .commit unended
      (.or (.or (.lookahead .separator) (.lookahead (.token .closeBrace)))
        (.lookahead (.token .endMarker)))
  | _, argument =>
    .map (.pair (.rule piece) (.zeroOrMore .adjacentPiece))
      fun (first, rest) => Grammar.glue first rest
  | _, piece => .nested (.or (.rule vectorExpansion) (.rule namePiece))
  | _, namePiece => .or (.or (.rule literal) (.rule substitution)) (.rule reference)
  | _, literal => .map (.or (.token .literal) (.token .quoted)) fun t => .literal t t.lexeme
  | _, substitution =>
    .map (.pair (.token .dollar) (.rule callTail))
      fun (sigil, name, args) => .substitution sigil name args
  | _, callTail =>
    (Expr.token .openParen).adjacent.right
      (.pair ((Expr.rule argument).cut .callName) .closedArguments)
  | _, reference =>
    .map (.pair (.token .dollar) (Expr.sigilName.cut .variableName))
      fun (sigil, name) => .reference sigil name
  | _, vectorExpansion =>
    .map (.pair (.token .vector) .vectorTarget)
      fun (sigil, name, args) => .vector sigil (target sigil name args)

/-- What is left to read, and how deeply what is being read is nested. -/
structure Cursor where
  tokens : List Token
  depth : Nat
  maxDepth : Nat

/-- What comes of an expression. -/
inductive Outcome (α : Type) where
  | done (value : α) (rest : Cursor)
  | absent
  | failed (error : ParseError)

namespace Cursor

/-- The error with this fault at the next token. -/
def error (c : Cursor) (fault : GrammarFault) : ParseError :=
  ⟨.grammar fault, here c.tokens⟩

/-- No further level may be opened. -/
def Full (c : Cursor) : Prop :=
  0 < c.maxDepth ∧ c.maxDepth ≤ c.depth

/-- One level deeper. -/
def deeper (c : Cursor) : Cursor :=
  { c with depth := c.depth + 1 }

end Cursor

namespace Outcome

variable {α β : Type}

/-- The outcome with another value. -/
def map (f : α → β) : Outcome α → Outcome β
  | done value rest => .done (f value) rest
  | absent => .absent
  | failed error => .failed error

/-- The outcome with no value instead of none. -/
def orNothing (c : Cursor) : Outcome α → Outcome (Option α)
  | done value rest => .done (some value) rest
  | absent => .done none c
  | failed error => .failed error

/-- The outcome with an error instead of none. -/
def orError (error : ParseError) : Outcome α → Outcome α
  | absent => .failed error
  | outcome => outcome

/-- The outcome with what was left at another depth. -/
def atDepth (depth : Nat) : Outcome α → Outcome α
  | done value rest => .done value { rest with depth }
  | absent => .absent
  | failed error => .failed error

/-- The outcome with everything left. -/
def rewind (c : Cursor) : Outcome α → Outcome Unit
  | done _ _ => .done () c
  | absent => .absent
  | failed error => .failed error

/-- What the outcome leaves has the property, if it leaves anything. -/
def Leaves (property : Cursor → Prop) : Outcome α → Prop
  | done _ rest => property rest
  | absent => True
  | failed _ => True

/-- The outcome without its levels. -/
def step : Outcome α → Step α
  | done value rest => .done value rest.tokens
  | absent => .absent
  | failed error => .failed error

end Outcome

/-- The expression, from this cursor on, has a run that ends with the outcome. -/
inductive Runs : {s : Shape} → Expr s → Cursor → Outcome s.Value → Prop
  | token {kind c t rest} :
    c.tokens = t :: rest →
    t.kind = kind →
    Runs (.token kind) c (.done t { c with tokens := rest })
  | token_absent {kind c} :
    (∀ t ∈ c.tokens.head?, t.kind ≠ kind) →
    Runs (.token kind) c .absent
  | map {s t : Shape} {f : s.Value → t.Value} {body c o} :
    Runs body c o →
    Runs (.map body f) c (o.map f)
  | pair {s t : Shape} {first : Expr s} {second : Expr t} {c value mid o} :
    Runs first c (.done value mid) →
    Runs second mid o →
    Runs (.pair first second) c (o.map (Prod.mk value))
  | pair_absent {s t : Shape} {first : Expr s} {second : Expr t} {c} :
    Runs first c .absent →
    Runs (.pair first second) c .absent
  | pair_failed {s t : Shape} {first : Expr s} {second : Expr t} {c error} :
    Runs first c (.failed error) →
    Runs (.pair first second) c (.failed error)
  | or {s : Shape} {first second : Expr s} {c o} :
    Runs first c o →
    o ≠ .absent →
    Runs (.or first second) c o
  | or_second {s : Shape} {first second : Expr s} {c o} :
    Runs first c .absent →
    Runs second c o →
    Runs (.or first second) c o
  | more {s : Shape} {body : Expr s} {c value mid o} :
    Runs body c (.done value mid) →
    Runs (.zeroOrMore body) mid o →
    Runs (.zeroOrMore body) c (o.map (List.cons value))
  | stop {s : Shape} {body : Expr s} {c} :
    Runs body c .absent →
    Runs (.zeroOrMore body) c (.done [] c)
  | more_failed {s : Shape} {body : Expr s} {c error} :
    Runs body c (.failed error) →
    Runs (.zeroOrMore body) c (.failed error)
  | maybe {s : Shape} {body : Expr s} {c o} :
    Runs body c o →
    Runs (.maybe body) c (o.orNothing c)
  | adjacent {s : Shape} {body : Expr s} {c t rest o} :
    c.tokens = t :: rest →
    t.spaced = false →
    Runs body c o →
    Runs (.adjacent body) c o
  | adjacent_absent {s : Shape} {body : Expr s} {c} :
    (∀ t ∈ c.tokens.head?, t.spaced) →
    Runs (.adjacent body) c .absent
  | commit {s : Shape} {fault} {body : Expr s} {c o} :
    Runs body c o →
    Runs (.commit fault body) c (o.orError (c.error (fault c.tokens.head?)))
  | nested {s : Shape} {body : Expr s} {c o} :
    ¬ c.Full →
    Runs body c.deeper o →
    Runs (.nested body) c (o.atDepth c.depth)
  | nested_failed {s : Shape} {body : Expr s} {c} :
    c.Full →
    Runs (.nested body) c (.failed (c.error (.nesting c.maxDepth)))
  | lookahead {s : Shape} {body : Expr s} {c o} :
    Runs body c o →
    Runs (.lookahead body) c (o.rewind c)
  | rule {s : Shape} {name : Name s} {c o} :
    Runs name.body c o →
    Runs (.rule name) c o

variable {s t : Shape} {e : Expr s} {c : Cursor} {o o' : Outcome s.Value}

/-- A run has only one outcome. -/
theorem Runs.unique (first : Runs e c o) (second : Runs e c o') : o = o' := by
  -- along the first run: whatever its parts come to, the second is by the same rule
  induction first with
  | token read kind =>
    cases second with
    | token read' =>
      cases read.symm.trans read'
      rfl
    | token_absent other => exact absurd kind (other _ (by rw [read]; rfl))
  | token_absent other =>
    cases second with
    | token read kind => exact absurd kind (other _ (by rw [read]; rfl))
    | token_absent => rfl
  | map _ ih =>
    cases second with
    | map body => rw [ih body]
  | pair _ _ ih ih' =>
    cases second with
    | pair first second =>
      cases ih first
      rw [ih' second]
    | pair_absent first | pair_failed first => cases ih first
  | pair_absent _ ih =>
    cases second with
    | pair first | pair_failed first => cases ih first
    | pair_absent => rfl
  | pair_failed _ ih =>
    cases second with
    | pair first | pair_absent first => cases ih first
    | pair_failed first =>
      cases ih first
      rfl
  | or _ present ih =>
    cases second with
    | or first => exact ih first
    | or_second first => exact absurd (ih first) present
  | or_second _ _ ih ih' =>
    cases second with
    | or first present => exact absurd (ih first).symm present
    | or_second _ second => exact ih' second
  | more _ _ ih ih' =>
    cases second with
    | more body rounds =>
      cases ih body
      rw [ih' rounds]
    | stop body | more_failed body => cases ih body
  | stop _ ih =>
    cases second with
    | more body | more_failed body => cases ih body
    | stop => rfl
  | more_failed _ ih =>
    cases second with
    | more body | stop body => cases ih body
    | more_failed body =>
      cases ih body
      rfl
  | maybe _ ih =>
    cases second with
    | maybe body => rw [ih body]
  | adjacent read near _ ih =>
    cases second with
    | adjacent _ _ body => exact ih body
    | adjacent_absent apart =>
      have spaced := apart _ (by rw [read]; rfl)
      simp [near] at spaced
  | adjacent_absent apart =>
    cases second with
    | adjacent read near =>
      have spaced := apart _ (by rw [read]; rfl)
      simp [near] at spaced
    | adjacent_absent => rfl
  | commit _ ih =>
    cases second with
    | commit body => rw [ih body]
  | nested _ _ ih =>
    cases second with
    | nested _ body => rw [ih body]
    | nested_failed full => contradiction
  | nested_failed full =>
    cases second with
    | nested vacant => contradiction
    | nested_failed => rfl
  | lookahead _ ih =>
    cases second with
    | lookahead body => rw [ih body]
  | rule _ ih =>
    cases second with
    | rule body => exact ih body

end Scriptlet.Peg
