import Scriptlet.Call
import Scriptlet.Table

/-!
# Scopes

Variables live in scopes. The global frame owns one, and so does every call of a definition; other
calls work on the innermost scope there is, so scoping is dynamic. A scope may forward a name to an
outer one after `global` or `nonlocal`.

Frames are numbered from the outermost, the global frame, which has the number zero, so the number
of a frame stays the same while calls come and go above it.
-/

namespace Scriptlet

/-- The variables of one scope, and the frames to which it forwards names. -/
structure Scope where
  bindings : Table String String
  redirects : Table String Nat
  deriving DecidableEq, Repr

/-- A scope without variables. -/
def Scope.empty : Scope :=
  ⟨.empty, .empty⟩

/-- A call in progress and what belongs to it. -/
structure Frame where
  call : ActiveCall
  /-- Its variables, if it owns any. -/
  scope : Option Scope
  /-- How many statements have been started directly in it. -/
  statements : Nat
  /-- The number of the statement that left its else-chain open. -/
  openChain : Option Nat
  /-- The result handed to it by a return. -/
  result : Option String
  deriving DecidableEq, Repr

namespace Frame

/-- The frame of a call that begins. -/
def ofCall (call : ActiveCall) (ownsScope : Bool) : Frame where
  call := call
  scope := if ownsScope then some .empty else none
  statements := 0
  openChain := none
  result := none

/-- Counts one more statement. -/
def countStatement (f : Frame) : Frame :=
  { f with statements := f.statements + 1 }

/-- Whether the statement right before the current one left its chain open. -/
def chainOpen (f : Frame) : Bool :=
  match f.openChain with
  | some n => n + 1 == f.statements
  | none => false

/-- Opens or closes the chain for the next statement. -/
def setChain (f : Frame) (isOpen : Bool) : Frame :=
  { f with openChain := if isOpen then some f.statements else none }

/-- Whether the frame owns a scope. -/
def ownsScope (f : Frame) : Bool :=
  f.scope.isSome

/-- Changes the scope of the frame, if it owns one. -/
def mapScope (f : Scope → Scope) (frame : Frame) : Frame :=
  { frame with scope := frame.scope.map f }

/-- Where the frame with this number finds a name by itself: where its scope forwards it, or in its
scope. -/
def finds? (f : Frame) (number : Nat) (name : String) : Option Nat :=
  f.scope.bind fun scope =>
    (scope.redirects.get? name).or (if scope.bindings.contains name then some number else none)

end Frame

/-- The frames of a run: the innermost, and those below it, the global frame last. -/
structure ScopeStack where
  top : Frame
  below : List Frame
  deriving DecidableEq, Repr

namespace ScopeStack

/-- The call that the global frame stands for. -/
def globalCall : ActiveCall :=
  ⟨"<global>", .command, [], .origin⟩

/-- Nothing but the global frame, without variables. -/
def initial : ScopeStack :=
  ⟨.ofCall globalCall true, []⟩

instance : Inhabited ScopeStack := ⟨initial⟩

/-- The frames, innermost first. -/
def toList (s : ScopeStack) : List Frame :=
  s.top :: s.below

/-- The frames, outermost first. -/
def frames (s : ScopeStack) : List Frame :=
  s.toList.reverse

/-- The number of calls in progress. -/
def depth (s : ScopeStack) : Nat :=
  s.below.length

/-- Enters a call. -/
def push (s : ScopeStack) (f : Frame) : ScopeStack :=
  ⟨f, s.toList⟩

/-- Leaves the innermost call. The global frame stays. -/
def pop (s : ScopeStack) : ScopeStack :=
  match s.below with
  | [] => s
  | f :: rest => ⟨f, rest⟩

/-- Leaves all calls. -/
def unwind (s : ScopeStack) : ScopeStack :=
  ⟨s.below.getLast?.getD s.top, []⟩

/-- Changes the innermost frame. -/
def modifyTop (s : ScopeStack) (f : Frame → Frame) : ScopeStack :=
  { s with top := f s.top }

/-- The frame around the innermost call; the global frame is around itself. -/
def parent (s : ScopeStack) : Frame :=
  s.below.head?.getD s.top

/-- Changes the frame around the innermost call. -/
def modifyParent (s : ScopeStack) (f : Frame → Frame) : ScopeStack :=
  match s.below with
  | [] => ⟨f s.top, []⟩
  | p :: rest => ⟨s.top, f p :: rest⟩

/-- Changes the frame that has so many frames above it. -/
def modifyAbove (s : ScopeStack) (f : Frame → Frame) : (above : Nat) → ScopeStack
  | 0 => ⟨f s.top, s.below⟩
  | above + 1 => ⟨s.top, s.below.modify above f⟩

/-- The number of the innermost frame that owns a scope. -/
def current (s : ScopeStack) : Nat :=
  s.depth - s.toList.findIdx Frame.ownsScope

/-- The scope of the frame with this number. -/
def scopeAt (s : ScopeStack) (number : Nat) : Option Scope :=
  if number ≤ s.depth then s.toList[s.depth - number]?.bind Frame.scope else none

/-- Changes the scope of the frame with this number, if there is one. -/
def modifyScope (s : ScopeStack) (number : Nat) (f : Scope → Scope) : ScopeStack :=
  if number ≤ s.depth then s.modifyAbove (Frame.mapScope f) (s.depth - number) else s

/-- The number of the frame in which a name lives, seen from the current scope. -/
def resolve (s : ScopeStack) (name : String) : Nat :=
  ((s.scopeAt s.current).bind fun scope => scope.redirects.get? name).getD s.current

/-- The value of a variable. -/
def get? (s : ScopeStack) (name : String) : Option String :=
  (s.scopeAt (s.resolve name)).bind fun scope => scope.bindings.get? name

/-- Gives a variable a value. -/
def set (s : ScopeStack) (name value : String) : ScopeStack :=
  s.modifyScope (s.resolve name) fun scope =>
    { scope with bindings := scope.bindings.insert name value }

/-- Takes a variable away. -/
def unset (s : ScopeStack) (name : String) : ScopeStack :=
  s.modifyScope (s.resolve name) fun scope => { scope with bindings := scope.bindings.erase name }

/-- Gives a variable of the current scope itself a value, wherever the name led before. -/
def bindLocal (s : ScopeStack) (name value : String) : ScopeStack :=
  s.modifyScope s.current fun scope =>
    { bindings := scope.bindings.insert name value, redirects := scope.redirects.erase name }

/-- Forwards a name of the current scope to a frame. -/
def redirect (s : ScopeStack) (name : String) (target : Nat) : ScopeStack :=
  s.modifyScope s.current fun scope =>
    { scope with redirects := scope.redirects.insert name target }

/-- Forwards a name of the current scope to the global one. -/
def declareGlobal (s : ScopeStack) (name : String) : ScopeStack :=
  if s.current = 0 then s else s.redirect name 0

/-- Where the innermost of these frames that finds a name finds it. A frame has as many frames
behind it in the list as its number says. -/
def findOutward (name : String) : List Frame → Option Nat
  | [] => none
  | f :: outer => (f.finds? outer.length name).or (findOutward name outer)

/-- The frame in which a name lives, seen from the scopes around the current one. -/
def enclosing? (s : ScopeStack) (name : String) : Option Nat :=
  findOutward name (s.toList.drop (s.depth - s.current + 1))

/-- Forwards a name of the current scope to where the scopes around it find it. -/
def declareNonlocal? (s : ScopeStack) (name : String) : Option ScopeStack :=
  (s.enclosing? name).map (s.redirect name)

/-- How many frames are above the innermost call of a definition. -/
def definitionAbove? (s : ScopeStack) : Option Nat :=
  s.toList.dropLast.findIdx? Frame.ownsScope

/-- Hands a result to the innermost call of a definition, if there is one. -/
def setResult? (s : ScopeStack) (value : String) : Option ScopeStack :=
  s.definitionAbove?.map (s.modifyAbove fun f => { f with result := some value })

/-- The calls in progress, outermost first. -/
def backtrace (s : ScopeStack) : List ActiveCall :=
  (s.frames.drop 1).map Frame.call

end ScopeStack

end Scriptlet
