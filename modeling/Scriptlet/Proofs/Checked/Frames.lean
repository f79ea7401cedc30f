import Scriptlet.Proofs.Scope.Global
import Scriptlet.Proofs.Scope.Stack

/-!
# Frames in a list

Frames kept in a list, the global frame first, so that the number of a frame is its index. The
innermost frame and the one around it are looked up by index, and the number of calls in progress is
one less than the number of frames: each of these is checked. A stack of frames is never without a
global frame, so no check fails. The steps are those of a run and no others (`FrameStep`), and what a
run does to its frames is such steps in a row (`LeadsTo.bridging`).
-/

namespace Scriptlet

namespace FrameList

/-- The number of calls in progress, which is the index of the innermost frame. -/
def depth? (frames : List Frame) : Option Nat :=
  if frames.length = 0 then none else some (frames.length - 1)

/-- The innermost frame. -/
def top? (frames : List Frame) : Option Frame := do
  let index ← depth? frames
  frames[index]?

/-- The frame around the innermost call. -/
def parent? (frames : List Frame) : Option Frame :=
  frames[frames.length - 2]?

/-- Changes the frame at an index, which must be there. -/
def modifyAt? (index : Nat) (f : Frame → Frame) (frames : List Frame) : Option (List Frame) :=
  if index < frames.length then some (frames.modify index f) else none

/-- Changes the innermost frame. -/
def modifyTop? (f : Frame → Frame) (frames : List Frame) : Option (List Frame) := do
  let index ← depth? frames
  modifyAt? index f frames

/-- Changes the frame around the innermost call. -/
def modifyParent? (f : Frame → Frame) (frames : List Frame) : Option (List Frame) :=
  modifyAt? (frames.length - 2) f frames

end FrameList

/-- What is done to the scope of a frame. -/
inductive ScopeChange where
  | bind (name value : String)
  | unbind (name : String)
  /-- Binds a name that is not forwarded from then on. -/
  | bindHere (name value : String)
  | forward (name : String) (target : Nat)

/-- The scope after the change. -/
def ScopeChange.apply (scope : Scope) : ScopeChange → Scope
  | bind name value => { scope with bindings := scope.bindings.insert name value }
  | unbind name => { scope with bindings := scope.bindings.erase name }
  | bindHere name value =>
    { bindings := scope.bindings.insert name value, redirects := scope.redirects.erase name }
  | forward name target => { scope with redirects := scope.redirects.insert name target }

/-- What is done to the frames of a run, one step after the other. -/
inductive FrameStep where
  /-- Enters a call, which owns a scope if a definition serves it. -/
  | push (call : ActiveCall) (owns : Bool)
  | pop
  | unwind
  /-- Looks at the number of calls in progress. -/
  | depth
  /-- Looks at the innermost frame. -/
  | top
  /-- Looks at the frame around the innermost call. -/
  | parent
  | countStatement
  | takeResult
  /-- Opens or closes the else-chain of the frame around the innermost call. -/
  | setChain (isOpen : Bool)
  /-- Hands a result to the frame with this number, if there is one. -/
  | setResult (number : Nat) (value : String)
  /-- Changes the scope of the frame with this number, if there is one. -/
  | scope (number : Nat) (change : ScopeChange)

namespace FrameStep

/-- The step on a list of frames. -/
def onList? (frames : List Frame) : FrameStep → Option (List Frame)
  | push call owns => some (frames ++ [.ofCall call owns])
  | pop => some (if 1 < frames.length then frames.dropLast else frames)
  | unwind => some (frames.take 1)
  | depth => (FrameList.depth? frames).map fun _ => frames
  | top => (FrameList.top? frames).map fun _ => frames
  | parent => (FrameList.parent? frames).map fun _ => frames
  | countStatement => FrameList.modifyTop? Frame.countStatement frames
  | takeResult => FrameList.modifyTop? (fun f => { f with result := none }) frames
  | setChain isOpen => FrameList.modifyParent? (·.setChain isOpen) frames
  | setResult number value => some (frames.modify number fun f => { f with result := some value })
  | scope number change => some (frames.modify number (Frame.mapScope change.apply))

/-- The step on a stack of frames. -/
def onStack (s : ScopeStack) : FrameStep → ScopeStack
  | push call owns => s.push (.ofCall call owns)
  | pop => s.pop
  | unwind => s.unwind
  | depth | top | parent => s
  | countStatement => s.modifyTop Frame.countStatement
  | takeResult => s.modifyTop fun f => { f with result := none }
  | setChain isOpen => s.modifyParent (·.setChain isOpen)
  | setResult number value =>
    if number ≤ s.depth then s.modifyAbove (fun f => { f with result := some value }) (s.depth - number)
    else s
  | scope number change => s.modifyScope number change.apply

end FrameStep

/-- What may become of a frame: its call stays, and so does its scope, if it owns one, and no statement
that it has counted is taken back. -/
structure Frame.Lasts (f f' : Frame) : Prop where
  call : f'.call = f.call
  owns : f'.ownsScope = f.ownsScope
  counted : f.statements ≤ f'.statements

/-- A frame to which nothing happens lasts. -/
lemma Frame.Lasts.refl (f : Frame) : f.Lasts f :=
  ⟨rfl, rfl, Nat.le_refl _⟩

/-- A frame that lasts through two changes lasts through both. -/
lemma Frame.Lasts.trans {f g h : Frame} (first : f.Lasts g) (rest : g.Lasts h) : f.Lasts h where
  call := rest.call.trans first.call
  owns := rest.owns.trans first.owns
  counted := Nat.le_trans first.counted rest.counted

namespace ScopeStack

variable (s : ScopeStack)

/-- Beside the calls in progress there is the global frame. -/
lemma length_frames : s.frames.length = s.depth + 1 := by
  rw [frames, List.length_reverse, length_toList]

/-- A frame stands in the list where its number says. -/
lemma frames_getElem? {number : Nat} (le : number ≤ s.depth) :
    s.frames[number]? = s.toList[s.depth - number]? := by
  rw [frames, List.getElem?_reverse (by rw [length_toList]; omega), length_toList,
    Nat.add_sub_cancel]

/-- A frame that is changed from the top is changed at its number in the list. -/
lemma frames_modifyAbove (f : Frame → Frame) {number : Nat} (le : number ≤ s.depth) :
    (s.modifyAbove f (s.depth - number)).frames = s.frames.modify number f := by
  apply List.ext_getElem?
  intro i
  rcases Nat.lt_or_ge s.depth i with beyond | le'
  · rw [List.getElem?_eq_none, List.getElem?_eq_none]
    · rw [List.length_modify, length_frames]
      exact beyond
    · rw [length_frames, depth_modifyAbove]
      exact beyond
  · have same : s.depth - number = s.depth - i ↔ number = i := by omega
    rw [List.getElem?_modify, frames_getElem? s le', frames_getElem? _ (by rwa [depth_modifyAbove]),
      depth_modifyAbove, toList_modifyAbove, List.getElem?_modify]
    simp only [same]

/-- The number of calls in progress is there to be looked at. -/
lemma depth?_frames : FrameList.depth? s.frames = some s.depth := by
  rw [FrameList.depth?, length_frames]
  rfl

/-- The innermost frame is there to be looked at. -/
lemma top?_frames : FrameList.top? s.frames = some s.top := by
  rw [FrameList.top?, depth?_frames, Option.bind_eq_bind, Option.bind_some,
    frames_getElem? s (Nat.le_refl _), Nat.sub_self]
  rfl

/-- The frame around the innermost call has the number below it, and the global frame is around
itself. -/
lemma parent?_frames : FrameList.parent? s.frames = some s.parent := by
  rw [FrameList.parent?, length_frames, frames_getElem? s (by omega)]
  rcases s with ⟨top, _ | ⟨p, rest⟩⟩
  · rfl
  · have above : rest.length + 1 - (rest.length + 1 + 1 - 2) = 1 := by omega
    show (top :: p :: rest)[rest.length + 1 - (rest.length + 1 + 1 - 2)]? = some p
    rw [above]
    rfl

/-- A frame with a number no greater than that of the innermost is there to be changed. -/
lemma modifyAt?_frames (f : Frame → Frame) {number : Nat} (le : number ≤ s.depth) :
    FrameList.modifyAt? number f s.frames =
      some (s.modifyAbove f (s.depth - number)).frames := by
  rw [FrameList.modifyAt?, if_pos (by rw [length_frames]; omega), frames_modifyAbove s f le]

/-- The innermost frame is there to be changed. -/
lemma modifyTop?_frames (f : Frame → Frame) :
    FrameList.modifyTop? f s.frames = some (s.modifyTop f).frames := by
  rw [FrameList.modifyTop?, depth?_frames, Option.bind_eq_bind, Option.bind_some,
    modifyAt?_frames s f (Nat.le_refl _), Nat.sub_self]
  rfl

/-- The frame around the innermost call is there to be changed, even if it is the global one. -/
lemma modifyParent?_frames (f : Frame → Frame) :
    FrameList.modifyParent? f s.frames = some (s.modifyParent f).frames := by
  have number : s.frames.length - 2 = s.depth - min 1 s.depth := by
    rw [length_frames]
    omega
  rw [FrameList.modifyParent?, number, modifyAt?_frames s f (Nat.sub_le ..), modifyParent_eq,
    Nat.sub_sub_self (Nat.min_le_right ..)]

/-- A frame is changed by its number where there is one. -/
lemma modify_frames (f : Frame → Frame) (number : Nat) :
    s.frames.modify number f =
      (if number ≤ s.depth then s.modifyAbove f (s.depth - number) else s).frames := by
  split
  case isTrue le => rw [frames_modifyAbove s f le]
  case isFalse beyond =>
    rw [List.modify_eq_self]
    rw [length_frames]
    omega

/-- The last frame of the list is left, unless it is the only one. -/
lemma frames_pop :
    (if 1 < s.frames.length then s.frames.dropLast else s.frames) = s.pop.frames := by
  rw [length_frames]
  rcases s with ⟨top, _ | ⟨f, rest⟩⟩
  · rfl
  · have above : 1 < (rest.length + 1) + 1 := by omega
    show (if 1 < (rest.length + 1) + 1 then _ else _) = _
    rw [if_pos above]
    show (top :: f :: rest).reverse.dropLast = (f :: rest).reverse
    rw [List.reverse_cons, List.dropLast_concat]

/-- The first frame of the list is the only one that stays. -/
lemma frames_unwind : s.frames.take 1 = s.unwind.frames := by
  rcases s with ⟨top, below⟩
  rcases List.eq_nil_or_concat below with rfl | ⟨rest, f, rfl⟩
  · rfl
  · simp [unwind, toList, frames]

/-- Each step on a list of frames does what it does on a stack of them. -/
lemma onList?_frames (step : FrameStep) : step.onList? s.frames = some (step.onStack s).frames := by
  cases step with
  | push call owns => exact congrArg some List.reverse_cons.symm
  | pop => exact congrArg some s.frames_pop
  | unwind => exact congrArg some s.frames_unwind
  | depth =>
    rw [FrameStep.onList?, depth?_frames]
    rfl
  | top =>
    rw [FrameStep.onList?, top?_frames]
    rfl
  | parent =>
    rw [FrameStep.onList?, parent?_frames]
    rfl
  | countStatement => exact modifyTop?_frames s _
  | takeResult => exact modifyTop?_frames s _
  | setChain isOpen => exact modifyParent?_frames s _
  | setResult number value => exact congrArg some (modify_frames s _ number)
  | scope number change => exact congrArg some (modify_frames s _ number)

/-- So do steps in a row: no check fails in any of them. -/
lemma foldlM_onList?_frames (steps : List FrameStep) :
    steps.foldlM FrameStep.onList? s.frames = some (steps.foldl FrameStep.onStack s).frames := by
  induction steps generalizing s with
  | nil => rfl
  | cons step steps ih =>
    rw [List.foldlM_cons, onList?_frames, Option.bind_eq_bind, Option.bind_some, ih,
      List.foldl_cons]

/-- A step changes the global frame as any other, and does not replace it. -/
lemma lasts_onStack (step : FrameStep) : s.globalFrame.Lasts (step.onStack s).globalFrame := by
  have changed (f : Frame → Frame) (lasts : ∀ frame : Frame, frame.Lasts (f frame)) (above : Nat) :
      s.globalFrame.Lasts (s.modifyAbove f above).globalFrame := by
    rw [globalFrame_modifyAbove]
    split
    · exact lasts _
    · exact .refl _
  have numbered (f : Frame → Frame) (lasts : ∀ frame : Frame, frame.Lasts (f frame)) (number : Nat) :
      s.globalFrame.Lasts
        (if number ≤ s.depth then s.modifyAbove f (s.depth - number) else s).globalFrame := by
    split
    · exact changed f lasts _
    · exact .refl _
  cases step with
  | push call owns =>
    rw [FrameStep.onStack, globalFrame_push]
    exact .refl _
  | pop =>
    rw [FrameStep.onStack, globalFrame_pop]
    exact .refl _
  | unwind =>
    rw [FrameStep.onStack, globalFrame_unwind]
    exact .refl _
  | depth | top | parent => exact .refl _
  | countStatement =>
    exact changed Frame.countStatement (fun frame => ⟨rfl, rfl, Nat.le_succ frame.statements⟩) 0
  | takeResult =>
    exact changed (fun f => { f with result := none }) (fun _ => ⟨rfl, rfl, Nat.le_refl _⟩) 0
  | setChain isOpen =>
    rw [FrameStep.onStack, modifyParent_eq]
    exact changed (·.setChain isOpen) (fun _ => ⟨rfl, rfl, Nat.le_refl _⟩) _
  | setResult number value =>
    exact numbered (fun f => { f with result := some value }) (fun _ => ⟨rfl, rfl, Nat.le_refl _⟩) number
  | scope number change =>
    exact numbered (Frame.mapScope change.apply)
      (fun frame => ⟨rfl, Frame.ownsScope_mapScope _ frame, Nat.le_refl _⟩) number

/-- Steps in a row lead from the one stack to the other. -/
def LeadsTo (s s' : ScopeStack) : Prop :=
  ∃ steps : List FrameStep, steps.foldl FrameStep.onStack s = s'

namespace LeadsTo

variable {s s₁ s' : ScopeStack}

/-- No steps lead nowhere. -/
lemma refl (s : ScopeStack) : s.LeadsTo s :=
  ⟨[], rfl⟩

/-- Steps may follow on steps. -/
lemma trans (first : s.LeadsTo s₁) (rest : s₁.LeadsTo s') : s.LeadsTo s' := by
  obtain ⟨early, rfl⟩ := first
  obtain ⟨late, rfl⟩ := rest
  exact ⟨early ++ late, List.foldl_append⟩

/-- One step leads where it leads. -/
lemma step (s : ScopeStack) (step : FrameStep) : s.LeadsTo (step.onStack s) :=
  ⟨[step], rfl⟩

/-- A name is forwarded by a change of the current scope. -/
lemma redirect (s : ScopeStack) (name : String) (target : Nat) :
    s.LeadsTo (s.redirect name target) :=
  step s (.scope s.current (.forward name target))

/-- A name is forwarded to the global scope, unless this is the current one. -/
lemma declareGlobal (s : ScopeStack) (name : String) : s.LeadsTo (s.declareGlobal name) := by
  unfold ScopeStack.declareGlobal
  split
  · exact refl s
  · exact redirect s name 0

/-- A name that an outer scope finds is forwarded there. -/
lemma declareNonlocal {name : String} (e : s.declareNonlocal? name = some s') : s.LeadsTo s' := by
  obtain ⟨target, -, rfl⟩ := Option.map_eq_some_iff.1 e
  exact redirect s name target

/-- A result is handed to the frame that owns the current scope. -/
lemma setResult {value : String} (e : s.setResult? value = some s') : s.LeadsTo s' := by
  obtain ⟨above, found, rfl⟩ := Option.map_eq_some_iff.1 e
  rw [definitionAbove?_eq] at found
  split at found
  · cases found
    have changed := step s (.setResult s.current value)
    rwa [FrameStep.onStack, if_pos s.current_le_depth] at changed
  · cases found

/-- What a handler can do to a context is such steps to its frames. -/
lemma update (c : Context) (change : Update) : c.scopes.LeadsTo (c.update change).scopes := by
  cases change with
  | set name value => exact step c.scopes (.scope _ (.bind name value))
  | unset name => exact step c.scopes (.scope _ (.unbind name))
  | declareGlobal name => exact declareGlobal c.scopes name
  | declareNonlocal name =>
    show c.scopes.LeadsTo ((c.scopes.declareNonlocal? name).getD c.scopes)
    cases e : c.scopes.declareNonlocal? name with
    | none => exact refl c.scopes
    | some scopes => exact declareNonlocal e
  | setChain isOpen => exact step c.scopes (.setChain isOpen)
  | leave result =>
    rw [Context.update]
    cases e : c.scopes.setResult? result with
    | none => exact refl c.scopes
    | some scopes => exact setResult e
  | stop => exact refl c.scopes
  | define definition => exact refl c.scopes

/-- What happens to the frames in a run happens step by step. -/
lemma bridging : Bridging LeadsTo where
  refl := refl
  trans := trans
  push s call owns := step s (.push call owns)
  pop s := step s .pop
  countStatement s := step s .countStatement
  update := update
  passage passage c := by
    refine passage.induction (motive := c.scopes.LeadsTo) (fun s name value h => ?_) (fun s h => ?_)
      (refl c.scopes)
    · exact h.trans (step s (.scope _ (.bindHere name value)))
    · exact h.trans (step s .takeResult)

/-- Steps put no other frame in the place of the global one, and take none of its statements back. -/
lemma globalFrame (h : s.LeadsTo s') : s.globalFrame.Lasts s'.globalFrame := by
  obtain ⟨steps, rfl⟩ := h
  induction steps generalizing s with
  | nil => exact .refl _
  | cons first rest ih => exact (lasts_onStack s first).trans ih

end LeadsTo

end ScopeStack

end Scriptlet
