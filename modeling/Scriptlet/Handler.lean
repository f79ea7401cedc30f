import Scriptlet.Action
import Scriptlet.Table

/-!
# Handlers

A host decides which calls exist by registering handlers, in one chain for each kind of call. The
first handler of the chain that answers to a name serves the call.
-/

namespace Scriptlet

/-- Serves the calls whose names it answers to. The answer of an expansion is its text. -/
structure Handler (σ : Type) where
  answersTo : String → Bool
  invoke : Call → Action σ (Option String)

/-- Serves one call. -/
abbrev Callback (σ : Type) : Type :=
  Call → Action σ (Option String)

/-- Callbacks by name, and other names for them. -/
structure Callbacks (σ : Type) where
  calls : Table String (Callback σ)
  aliases : Table String String

namespace Callbacks

variable {σ : Type}

/-- No callbacks. -/
def empty : Callbacks σ :=
  ⟨.empty, .empty⟩

/-- Callbacks under their names. -/
def ofList (calls : List (String × Callback σ)) : Callbacks σ :=
  ⟨.ofList calls, .empty⟩

/-- Registers a callback under a name, in place of any other. -/
def addCall (t : Callbacks σ) (name : String) (callback : Callback σ) : Callbacks σ :=
  { t with calls := t.calls.insert name callback }

/-- Makes one name stand for another. -/
def addAlias (t : Callbacks σ) (other target : String) : Callbacks σ :=
  { t with aliases := t.aliases.insert other target }

/-- Takes a name and every alias of it out. -/
def removeCall (t : Callbacks σ) (name : String) : Callbacks σ :=
  { calls := t.calls.erase name
    aliases := t.aliases.filterValues fun target => target ≠ name }

/-- The callback that a name stands for. An alias comes before a callback of the same name, and is
followed once. -/
def find? (t : Callbacks σ) (name : String) : Option (Callback σ) :=
  t.calls.get? ((t.aliases.get? name).getD name)

/-- Whether a name stands for a callback. -/
def contains (t : Callbacks σ) (name : String) : Bool :=
  (t.find? name).isSome

/-- The callbacks as a handler. -/
def toHandler (t : Callbacks σ) : Handler σ where
  answersTo := t.contains
  invoke call :=
    match t.find? call.name with
    | some callback => callback call
    | none => .fail (.noCallback call.name)

/-- A list of texts in brackets, each text quoted. -/
def describeNames (names : List String) : String :=
  "[" ++ ", ".intercalate (names.map Text.quoted) ++ "]"

/-- The names, sorted, and the aliases. -/
def describe (t : Callbacks σ) : String :=
  let names := describeNames (t.calls.keys.mergeSort fun a b => decide (a ≤ b))
  let aliases := t.aliases.entries.map fun (other, target) =>
    Text.quoted other ++ ": " ++ Text.quoted target
  "CallbackHandler \x7b calls: " ++ names ++ ", aliases: \x7b" ++ ", ".intercalate aliases ++
    "\x7d \x7d"

end Callbacks

/-- The handlers for one kind of call, in the order in which they were registered. -/
abbrev Chain (σ : Type) : Type :=
  Table String (Handler σ)

namespace Chain

variable {σ : Type}

/-- The first of these handlers that answers to a name. -/
def firstFor (name : String) : List (String × Handler σ) → Option (Handler σ)
  | [] => none
  | (_, handler) :: rest => if handler.answersTo name then some handler else firstFor name rest

/-- The handler that serves calls of a name. -/
def handlerFor? (chain : Chain σ) (name : String) : Option (Handler σ) :=
  firstFor name chain.entries

/-- The names under which the handlers are registered. -/
def describe (chain : Chain σ) : String :=
  Callbacks.describeNames chain.keys

end Chain

/-- One chain of handlers for each kind of call. -/
structure Registry (σ : Type) where
  commands : Chain σ
  controls : Chain σ
  expansions : Chain σ

namespace Registry

variable {σ : Type}

/-- No handlers. -/
def empty : Registry σ :=
  ⟨.empty, .empty, .empty⟩

/-- The chain for a kind of call. -/
def chain (r : Registry σ) : CallKind → Chain σ
  | .command => r.commands
  | .control => r.controls
  | .expansion => r.expansions

/-- Changes the chain for a kind of call. -/
def modify (r : Registry σ) (kind : CallKind) (f : Chain σ → Chain σ) : Registry σ :=
  match kind with
  | .command => { r with commands := f r.commands }
  | .control => { r with controls := f r.controls }
  | .expansion => { r with expansions := f r.expansions }

/-- Registers a handler under a name. A name that is there keeps its place. -/
def add (r : Registry σ) (kind : CallKind) (name : String) (handler : Handler σ) : Registry σ :=
  r.modify kind (·.insert name handler)

/-- Takes the handler under a name out. -/
def remove (r : Registry σ) (kind : CallKind) (name : String) : Registry σ :=
  r.modify kind (·.erase name)

/-- The names under which handlers are registered, chain by chain. -/
def describe (r : Registry σ) : String :=
  "Registry \x7b commands: " ++ r.commands.describe ++ ", controls: " ++ r.controls.describe ++
    ", expansions: " ++ r.expansions.describe ++ " \x7d"

end Registry

end Scriptlet
