import Scriptlet.Token

/-!
# The tree of a script

A script is a list of statements, and statements are made of words. The trees carry an annotation
at every place where the script has a token that starts the piece; trees read from a text carry
that token, and `map` forgets or replaces annotations.
-/

namespace Scriptlet

/-- A word of a script, evaluated to a text. -/
inductive Word (α : Type) where
  /-- A literal stands for its content. -/
  | literal (origin : α) (content : String)
  /-- The value of the variable with the name that `name` evaluates to. -/
  | reference (origin : α) (name : Word α)
  /-- The result of an expansion call. -/
  | substitution (origin : α) (name : Word α) (args : List (Word α))
  /-- The words of what a variable or a substitution evaluates to. -/
  | vector (origin : α) (target : Word α)
  /-- The values of adjacent pieces, put together. -/
  | glued (pieces : List (Word α))
  deriving Repr

/-- A statement of a script, run for its effects. -/
inductive Statement (α : Type) where
  /-- A command call. -/
  | command (name : Word α) (args : List (Word α))
  /-- A control call, which decides how often its body runs. -/
  | control (origin : α) (name : Word α) (args : List (Word α)) (body : Statement α)
  /-- Statements run in order. -/
  | block (origin : α) (body : List (Statement α))
  deriving Repr

namespace Word

variable {α β : Type}

instance [Inhabited α] : Inhabited (Word α) := ⟨.literal default ""⟩

/-- Whether the word is put together from pieces. -/
def isGlued : Word α → Bool
  | glued _ => true
  | _ => false

/-- The content of a literal. -/
def content? : Word α → Option String
  | literal _ content => some content
  | _ => none

mutual

/-- The annotation of the word: that of its first piece, if it is put together. -/
def origin? : Word α → Option α
  | literal origin _ => some origin
  | reference origin _ => some origin
  | substitution origin _ _ => some origin
  | vector origin _ => some origin
  | glued pieces => firstOrigin? pieces

/-- The annotation of the first word. -/
def firstOrigin? : List (Word α) → Option α
  | [] => none
  | word :: _ => word.origin?

end

mutual

/-- The word with every annotation replaced. -/
def map (f : α → β) : Word α → Word β
  | literal origin content => .literal (f origin) content
  | reference origin name => .reference (f origin) (name.map f)
  | substitution origin name args => .substitution (f origin) (name.map f) (mapAll f args)
  | vector origin target => .vector (f origin) (target.map f)
  | glued pieces => .glued (mapAll f pieces)

/-- The words with every annotation replaced. -/
def mapAll (f : α → β) : List (Word α) → List (Word β)
  | [] => []
  | word :: words => word.map f :: mapAll f words

end

/-- Where a word of a text starts. -/
def start (word : Word Token) : Location :=
  (word.origin?.map Token.start).getD .origin

end Word

namespace Statement

variable {α β : Type}

instance [Inhabited α] : Inhabited (Statement α) := ⟨.block default []⟩

/-- The annotation of the statement: that of its name, if it is a command. -/
def origin? : Statement α → Option α
  | command name _ => name.origin?
  | control origin _ _ _ => some origin
  | block origin _ => some origin

mutual

/-- The statement with every annotation replaced. -/
def map (f : α → β) : Statement α → Statement β
  | command name args => .command (name.map f) (Word.mapAll f args)
  | control origin name args body => .control (f origin) (name.map f) (Word.mapAll f args) (body.map f)
  | block origin body => .block (f origin) (mapAll f body)

/-- The statements with every annotation replaced. -/
def mapAll (f : α → β) : List (Statement α) → List (Statement β)
  | [] => []
  | statement :: statements => statement.map f :: mapAll f statements

end

mutual

/-- Whether a command with this literal name stands anywhere in the statement. -/
def names (command : String) : Statement α → Bool
  | .command name _ => name.content? = some command
  | control _ _ _ body => body.names command
  | block _ body => anyNames command body

/-- Whether a command with this literal name stands anywhere in the statements. -/
def anyNames (command : String) : List (Statement α) → Bool
  | [] => false
  | statement :: statements => statement.names command || anyNames command statements

end

/-- Where a statement of a text starts. -/
def start (statement : Statement Token) : Location :=
  (statement.origin?.map Token.start).getD .origin

end Statement

end Scriptlet
