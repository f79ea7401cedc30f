import Scriptlet.Interpreter.Statements

/-!
# Running outlines

An interpreter of outlines. It looks at the kinds of nodes and at their children only, so that it
meets trees which are no scripts as well, and indexes are checked where they are used. What it does
with such a tree or index is left open: it is `Stuck`.
-/

namespace Scriptlet

/-- What an interpreter of outlines cannot go on with. -/
inductive Misfit where
  /-- A node of this kind stands where a statement is run. -/
  | notStatement (kind : NodeKind)
  /-- A node of this kind stands where an argument is evaluated. -/
  | notArgument (kind : NodeKind)
  /-- A call has not got a name, arguments, and perhaps a body. -/
  | malformedCall
  /-- The node of a call cannot be shown to a handler. -/
  | unreadable
  /-- There are fewer arguments than the parameters in front of a collector. -/
  | shortOfArguments
  deriving DecidableEq, Repr

/-- What is done where an outline does not fit. -/
abbrev Stuck (σ : Type) : Type 1 :=
  (α : Type) → Misfit → Evaluation σ α

/-- The list behind its first so many items, which it must have. -/
def sliceFrom? {α : Type} (start : Nat) (items : List α) : Option (List α) :=
  if start ≤ items.length then some (items.drop start) else none

namespace Outline

section Reading

variable {α : Type}

mutual

/-- The word that the outline is one of. -/
def word? : Outline α → Option (Word α)
  | node .literal (some origin) (some content) [] => some (.literal origin content)
  | node .reference (some origin) none [name] => name.word?.map (.reference origin)
  | node .substitution (some origin) none [name, node .arguments none none args] => do
    let name ← name.word?
    let args ← words? args
    some (.substitution origin name args)
  | node .vector (some origin) none [target] => target.word?.map (.vector origin)
  | node .glued _ none pieces => (words? pieces).map .glued
  | _ => none

/-- The words that the outlines are ones of. -/
def words? : List (Outline α) → Option (List (Word α))
  | [] => some []
  | tree :: trees => do
    let word ← tree.word?
    let words ← words? trees
    some (word :: words)

end

mutual

/-- The statement that the outline is one of. -/
def statement? : Outline α → Option (Statement α)
  | node .command _ none [name, node .arguments none none args] => do
    let name ← name.word?
    let args ← words? args
    some (.command name args)
  | node .control (some origin) none [name, node .arguments none none args, body] => do
    let name ← name.word?
    let args ← words? args
    let body ← body.statement?
    some (.control origin name args body)
  | node .block (some origin) none body => (statements? body).map (.block origin)
  | _ => none

/-- The statements that the outlines are ones of. -/
def statements? : List (Outline α) → Option (List (Statement α))
  | [] => some []
  | tree :: trees => do
    let statement ← tree.statement?
    let statements ← statements? trees
    some (statement :: statements)

end

/-- The call that the outline is one of, as a piece of a tree. -/
def call? (tree : Outline α) : Option (Node α) :=
  match tree.statement? with
  | some statement => some (.statement statement)
  | none => tree.word?.map .word

/-- The body of a control call. -/
def body? (tree : Outline α) : Option (Outline α) :=
  match tree.kind with
  | .control => tree.children[2]?
  | _ => none

end Reading

variable {σ : Type} (stuck : Stuck σ) (expand : Outline Token → Evaluation σ String)

mutual

/-- The text that an argument evaluates to. -/
def evaluate : Outline Token → Evaluation σ String
  | node .literal _ content _ => pure (content.getD "")
  | node .reference origin content [child] => do
    let name ← child.evaluate
    match (← Evaluation.context).get? name with
    | some value => pure value
    | none =>
      Evaluation.failAt (node .reference origin content [child]).span.start (.noVariable name)
  | node .substitution origin content children =>
    expand (node .substitution origin content children)
  | node .vector _ _ [target] => do
    let value ← target.evaluate
    pure (Text.unwords (Text.words value))
  | node .glued _ _ pieces => do
    let values ← evaluateAll pieces
    pure (String.join values)
  | node kind _ _ _ => stuck String (.notArgument kind)

/-- The texts that arguments evaluate to, in order. -/
def evaluateAll : List (Outline Token) → Evaluation σ (List String)
  | [] => pure []
  | tree :: trees => do
    let value ← tree.evaluate
    let values ← evaluateAll trees
    pure (value :: values)

end

/-- The arguments that a node stands for: each word of a vector, one text otherwise. -/
def slots (tree : Outline Token) : Evaluation σ (List String) := do
  let value ← tree.evaluate stuck expand
  match tree.kind with
  | .vector => pure (Text.words value)
  | _ => pure [value]

/-- The arguments that nodes stand for, in order. -/
def arguments : List (Outline Token) → Evaluation σ (List String)
  | [] => pure []
  | tree :: trees => do
    let first ← tree.slots stuck expand
    let rest ← arguments trees
    pure (first ++ rest)

/-- The arguments of a call, evaluated again. -/
def reread (tree : Outline Token) : Evaluation σ (List String) :=
  match tree.children[1]? with
  | some list => arguments stuck expand list.children
  | none => pure []

end Outline

namespace Interpreter

variable {σ : Type} (it : Interpreter σ) (stuck : Stuck σ) (run : Outline Token → Evaluation σ Unit)
  (expand : Outline Token → Evaluation σ String) (rounds : Nat)

/-- Binds the parameters of a definition in the current scope. A collector takes what is behind the
arguments of the other parameters. -/
def bindParams? (definition : Definition) (args : List String) (s : ScopeStack) :
    Option ScopeStack :=
  let bound :=
    (definition.params.zip args).foldl (fun s (param, arg) => s.bindLocal param arg) s
  match definition.collector with
  | some collector =>
    (sliceFrom? definition.params.length args).map fun rest =>
      bound.bindLocal collector (Text.unwords rest)
  | none => some bound

/-- Runs the outline of a definition in its frame. -/
def runDefinitionTree (definition : Definition) (args : List String) :
    Evaluation σ (Option String) :=
  match arityFault? definition args.length with
  | some fault => Evaluation.fail fault
  | none => do
    let context ← Evaluation.context
    match bindParams? definition args context.scopes with
    | none => stuck _ .shortOfArguments
    | some scopes =>
      Evaluation.modify fun c => c.withScopes fun _ => scopes
      run definition.body.outline
      Evaluation.modify arrive
      takeResult

/-- Runs the body of a call, which must have one. -/
def runBodyTree (tree : Outline Token) (name : String) : Evaluation σ Unit :=
  match tree.body? with
  | some body => run body
  | none => Evaluation.fail (.noBody name)

/-- Has a handler serve a call in its frame. -/
def handleTree (tree : Outline Token) (call : ActiveCall) (handler : Handler σ) :
    Evaluation σ (Option String) :=
  match tree.call? with
  | none => stuck _ .unreadable
  | some node => do
    Evaluation.notify it.observe (.handler call)
    Evaluation.ofAction (runBodyTree run tree call.name) (tree.reread stuck expand) rounds
      (handler.invoke ⟨call, node, tree.body?.bind Outline.statement?⟩)

/-- Serves a call in its frame: by the definition or, without one, by the first handler that answers
to its name. -/
def dispatchTree (tree : Outline Token) (definition : Option Definition) (call : ActiveCall) :
    Evaluation σ (Option String) :=
  match definition with
  | some definition => do
    Evaluation.notify it.observe (.definition call)
    runDefinitionTree stuck run definition call.args
  | none =>
    match Chain.handlerFor? (it.registry.chain call.kind) call.name with
    | none => Evaluation.fail (.noCall call.kind call.name)
    | some handler => it.handleTree stuck run expand rounds tree call handler

/-- Serves a call with this name and these arguments, in a frame of its own. -/
def serveTree (kind : CallKind) (tree : Outline Token) (name : String) (args : List String) :
    Evaluation σ String :=
  if name = "" then Evaluation.failAt tree.span.start (.emptyCallName kind)
  else do
    let context ← Evaluation.context
    if context.isStopped then pure ""
    else if 0 < it.limits.maxCallDepth && it.limits.maxCallDepth ≤ context.scopes.depth then
      Evaluation.failAt tree.span.start (.depthCeiling it.limits.maxCallDepth)
    else
      let call : ActiveCall := ⟨name, kind, args, tree.span.start⟩
      let definition := context.definition? kind name
      let answer ← Evaluation.inFrame (.ofCall call definition.isSome)
        (it.dispatchTree stuck run expand rounds tree definition call)
      pure (answer.getD "")

/-- Makes a call. The first two children are its name and its arguments; there may be a third. -/
def callTree (kind : CallKind) (tree : Outline Token) : Evaluation σ String :=
  match tree.children with
  | [name, args] | [name, args, _] => do
    let named ← name.slots stuck expand
    let given ← Outline.arguments stuck expand args.children
    it.serveTree stuck run expand rounds kind tree (named.head?.getD "") (named.tail ++ given)
  | _ => stuck String .malformedCall

/-- Runs statements in order, as long as execution goes on to the next one. -/
def sequenceTrees : List (Outline Token) → Evaluation σ Unit
  | [] => pure ()
  | tree :: rest => do
    if (← Evaluation.context).isInterrupted then pure ()
    else
      run tree
      sequenceTrees rest

/-- Does what a node says, given how to run and to expand what stands in it. -/
def performTree (tree : Outline Token) : Evaluation σ Unit :=
  match tree.kind with
  | .script | .block => sequenceTrees run tree.children
  | .command => do
    let _ ← it.callTree stuck run expand rounds .command tree
    pure ()
  | .control => do
    let _ ← it.callTree stuck run expand rounds .control tree
    pure ()
  | kind => stuck Unit (.notStatement kind)

mutual

/-- Runs a node as a statement. -/
def runTree (it : Interpreter σ) (stuck : Stuck σ) :
    (fuel : Nat) → Outline Token → Evaluation σ Unit
  | 0, _ => Evaluation.exhausted
  | fuel + 1, tree => do
    it.step tree.span.start
    countStatement
    it.performTree stuck (runTree it stuck fuel) (expandTree it stuck fuel) fuel tree

/-- Evaluates an expansion call. -/
def expandTree (it : Interpreter σ) (stuck : Stuck σ) :
    (fuel : Nat) → Outline Token → Evaluation σ String
  | 0, _ => Evaluation.exhausted
  | fuel + 1, tree => do
    it.step tree.span.start
    it.callTree stuck (runTree it stuck fuel) (expandTree it stuck fuel) fuel .expansion tree

end

end Interpreter

end Scriptlet
