import Scriptlet.Syntax.Basic
import Scriptlet.Text.Quoted

/-!
# Outlines

The uniform view of a tree: every node has a kind, perhaps an annotation and a content, and
children. Listings, spans and the two printed forms are defined on it. A `Node` is any piece of a
tree that has an outline.
-/

namespace Scriptlet

/-- The kinds of nodes. -/
inductive NodeKind where
  | script
  | command
  | control
  | block
  | literal
  | arguments
  | reference
  | substitution
  | vector
  | glued
  deriving DecidableEq, Repr, Inhabited

/-- The name under which printed trees show the kind. -/
def NodeKind.name : NodeKind → String
  | script => "Root"
  | command => "CommandCall"
  | control => "ControlCall"
  | block => "Block"
  | literal => "StringLiteral"
  | arguments => "ArgumentList"
  | reference => "VariableReference"
  | substitution => "SubstitutionCall"
  | vector => "VectorExpansion"
  | glued => "Concatenation"

/-- A tree whose nodes all look alike. Only literals have a content. -/
inductive Outline (α : Type) where
  | node (kind : NodeKind) (origin : Option α) (content : Option String)
      (children : List (Outline α))
  deriving Repr

namespace Outline

variable {α : Type}

/-- The kind of the root. -/
def kind : Outline α → NodeKind
  | node kind _ _ _ => kind

/-- The annotation of the root. -/
def origin : Outline α → Option α
  | node _ origin _ _ => origin

/-- The content of the root. -/
def content : Outline α → Option String
  | node _ _ content _ => content

/-- The nodes right beneath the root. -/
def children : Outline α → List (Outline α)
  | node _ _ _ children => children

mutual

/-- Every node with its depth, a node before its children. -/
def preorder (depth : Nat) : Outline α → List (Nat × Outline α)
  | node kind origin content children =>
    (depth, node kind origin content children) :: preorderAll (depth + 1) children

/-- The nodes of several trees side by side. -/
def preorderAll (depth : Nat) : List (Outline α) → List (Nat × Outline α)
  | [] => []
  | tree :: trees => tree.preorder depth ++ preorderAll depth trees

end

mutual

/-- The tree on one line: a literal with its content, any other node with its children. -/
def debug : Outline α → String
  | node kind _ (some content) _ => kind.name ++ "(" ++ Text.quoted content ++ ")"
  | node kind _ none children => kind.name ++ "([" ++ ", ".intercalate (debugAll children) ++ "])"

/-- Each tree on one line. -/
def debugAll : List (Outline α) → List String
  | [] => []
  | tree :: trees => tree.debug :: debugAll trees

end

/-- One line of the indented form. -/
def line (depth : Nat) (tree : Outline α) : String :=
  let content := match tree.content with
    | some content => " " ++ Text.quoted content
    | none => ""
  .ofList (List.replicate (4 * depth) ' ') ++ tree.kind.name ++ content

/-- The indented form: one line for each node, four blanks for each level. -/
def pretty (tree : Outline α) : String :=
  String.join ((tree.preorder 0).map fun (depth, piece) => piece.line depth ++ "\n")

/-- The nodes of the given kind, a node before its children. -/
def findAll (kind : NodeKind) (tree : Outline α) : List (Outline α) :=
  ((tree.preorder 0).map Prod.snd).filter fun piece => piece.kind = kind

mutual

/-- The span of a node: from its own token, or without one from its first child, to the end of its
last child, or without children to its own end. A node with neither is at the origin. -/
def span : Outline Token → Span
  | node _ origin _ children =>
    let first := (origin.map Token.span).or (firstSpan? children)
    match first with
    | none => .origin
    | some first => ⟨first.start, ((lastSpan? children).getD first).stop⟩

/-- The span of the first tree. -/
def firstSpan? : List (Outline Token) → Option Span
  | [] => none
  | tree :: _ => some tree.span

/-- The span of the last tree. -/
def lastSpan? : List (Outline Token) → Option Span
  | [] => none
  | tree :: trees => (lastSpan? trees).or (some tree.span)

end

end Outline

mutual

/-- The outline of a word. -/
def Word.outline {α : Type} : Word α → Outline α
  | .literal origin content => .node .literal (some origin) (some content) []
  | .reference origin name => .node .reference (some origin) none [name.outline]
  | .substitution origin name args =>
    .node .substitution (some origin) none
      [name.outline, .node .arguments none none (Word.outlines args)]
  | .vector origin target => .node .vector (some origin) none [target.outline]
  | .glued pieces => .node .glued (Word.firstOrigin? pieces) none (Word.outlines pieces)

/-- The outlines of words. -/
def Word.outlines {α : Type} : List (Word α) → List (Outline α)
  | [] => []
  | word :: words => word.outline :: Word.outlines words

end

/-- The outline of the arguments of a call. -/
def Outline.ofArguments {α : Type} (args : List (Word α)) : Outline α :=
  .node .arguments none none (Word.outlines args)

mutual

/-- The outline of a statement. -/
def Statement.outline {α : Type} : Statement α → Outline α
  | .command name args =>
    .node .command name.origin? none [name.outline, .ofArguments args]
  | .control origin name args body =>
    .node .control (some origin) none [name.outline, .ofArguments args, body.outline]
  | .block origin body => .node .block (some origin) none (Statement.outlines body)

/-- The outlines of statements. -/
def Statement.outlines {α : Type} : List (Statement α) → List (Outline α)
  | [] => []
  | statement :: statements => statement.outline :: Statement.outlines statements

end

/-- Any piece of a tree. -/
inductive Node (α : Type) where
  | script (body : List (Statement α))
  | statement (statement : Statement α)
  | arguments (args : List (Word α))
  | word (word : Word α)
  deriving Repr

namespace Node

variable {α : Type}

/-- The outline of the piece. -/
def outline : Node α → Outline α
  | script body => .node .script none none (Statement.outlines body)
  | statement s => s.outline
  | arguments args => .ofArguments args
  | word w => w.outline

/-- The kind of the piece. -/
def kind (n : Node α) : NodeKind :=
  n.outline.kind

/-- The pieces right beneath the piece, in the order of its outline. -/
def children : Node α → List (Node α)
  | script body => body.map statement
  | statement (.command name args) => [word name, arguments args]
  | statement (.control _ name args body) => [word name, arguments args, statement body]
  | statement (.block _ body) => body.map statement
  | arguments args => args.map word
  | word (.literal _ _) => []
  | word (.reference _ name) => [word name]
  | word (.substitution _ name args) => [word name, arguments args]
  | word (.vector _ target) => [word target]
  | word (.glued pieces) => pieces.map word

/-- The piece that a path of child numbers leads to. -/
def at? : List Nat → Node α → Option (Node α)
  | [], n => some n
  | i :: path, n => n.children[i]?.bind (at? path)

/-- Where a piece of a text starts. A script starts with its first statement, arguments with the
first of them. -/
def start : Node Token → Location
  | script body => (body.head?.map Statement.start).getD .origin
  | statement s => s.start
  | arguments args => (args.head?.map Word.start).getD .origin
  | word w => w.start

end Node

end Scriptlet
