import Scriptlet.Proofs.Evaluation.Relation
import Scriptlet.Proofs.Scope.Stack

/-!
# What changes of a context keep

Neither handlers nor the way into and out of a definition take steps, enter calls or leave them.
-/

namespace Scriptlet

namespace Context

/-- A handler cannot take steps. -/
@[simp]
lemma steps_update (c : Context) (change : Update) : (c.update change).steps = c.steps := by
  cases change with
  | leave result =>
    rw [update]
    cases c.scopes.setResult? result <;> rfl
  | _ => rfl

/-- What changes of scopes and, if it is one, of results and of chains keep of every frame is the
same for all of them after a change. -/
lemma map_update {α : Type} {g : Frame → α}
    (scope : ∀ f frame, g (Frame.mapScope f frame) = g frame) (c : Context) (change : Update)
    (result : ∀ value, change = .leave value →
      ∀ frame : Frame, g { frame with result := some value } = g frame)
    (chain : ∀ isOpen, change = .setChain isOpen →
      ∀ frame : Frame, g (frame.setChain isOpen) = g frame) :
    (c.update change).scopes.toList.map g = c.scopes.toList.map g := by
  cases change with
  | set name value => exact ScopeStack.map_modifyScope scope _ _ _
  | unset name => exact ScopeStack.map_modifyScope scope _ _ _
  | declareGlobal name =>
    show (c.scopes.declareGlobal name).toList.map g = _
    rw [ScopeStack.declareGlobal]
    split
    · rfl
    · exact ScopeStack.map_modifyScope scope _ _ _
  | declareNonlocal name =>
    show ((c.scopes.declareNonlocal? name).getD c.scopes).toList.map g = _
    cases e : c.scopes.declareNonlocal? name with
    | none => rfl
    | some scopes =>
      obtain ⟨target, -, rfl⟩ := Option.map_eq_some_iff.1 e
      exact ScopeStack.map_modifyScope scope _ _ _
  | setChain isOpen => exact ScopeStack.map_modifyParent (chain isOpen rfl) _
  | leave value =>
    rw [update]
    cases e : c.scopes.setResult? value with
    | none => rfl
    | some scopes =>
      obtain ⟨above, -, rfl⟩ := Option.map_eq_some_iff.1 e
      exact ScopeStack.map_modifyAbove (result value rfl) _ _
  | stop => rfl
  | define definition => rfl

/-- A handler can neither enter nor leave calls. -/
lemma shape_update (c : Context) (change : Update) :
    (c.update change).scopes.shape = c.scopes.shape :=
  map_update Frame.identity_mapScope c change (fun _ _ _ => rfl) fun _ _ _ => rfl

/-- No change of a handler enters or leaves a call. -/
@[simp]
lemma depth_update (c : Context) (change : Update) :
    (c.update change).scopes.depth = c.scopes.depth :=
  ScopeStack.depth_eq_of_shape (c.shape_update change)

end Context

namespace Interpreter

/-- What holds between two stacks holds after parameters are bound in both, if it does after binding
one variable in both. -/
lemma bindParams_induction₂ {motive : ScopeStack → ScopeStack → Prop}
    (bindLocal : ∀ s t name value, motive s t → motive (s.bindLocal name value) (t.bindLocal name value))
    {s t : ScopeStack} (h : motive s t) (definition : Definition) (args : List String) :
    motive (bindParams definition args s) (bindParams definition args t) := by
  have bound := List.foldl_rel (l := definition.params.zip args) h
    fun pair _ s t h => bindLocal s t pair.1 pair.2 h
  rw [bindParams, bindParams]
  cases definition.collector with
  | none => exact bound
  | some collector => exact bindLocal _ _ _ _ bound

/-- What holds of a stack holds after parameters are bound, if it does after binding one
variable. -/
lemma bindParams_induction {motive : ScopeStack → Prop}
    (bindLocal : ∀ s name value, motive s → motive (s.bindLocal name value)) {s : ScopeStack}
    (h : motive s) (definition : Definition) (args : List String) :
    motive (bindParams definition args s) :=
  bindParams_induction₂ (motive := fun t _ => motive t) (t := s) (fun s _ => bindLocal s) h definition
    args

/-- Parameters change scopes only. -/
lemma map_bindParams {α : Type} {g : Frame → α}
    (scope : ∀ f frame, g (Frame.mapScope f frame) = g frame) (definition : Definition)
    (args : List String) (s : ScopeStack) :
    (bindParams definition args s).toList.map g = s.toList.map g :=
  bindParams_induction (motive := fun t => t.toList.map g = s.toList.map g)
    (fun _ _ _ h => (ScopeStack.map_modifyScope scope _ _ _).trans h) rfl definition args

/-- The calls in progress stay where parameters are bound. -/
lemma shape_bindParams (definition : Definition) (args : List String) (s : ScopeStack) :
    (bindParams definition args s).shape = s.shape :=
  map_bindParams Frame.identity_mapScope definition args s

end Interpreter

namespace Evaluation.Passage

variable {change : Context → Context}

/-- What holds of the frames holds of them on the way into and out of a definition, if it does after
one variable is bound or the innermost result is taken. -/
lemma induction {motive : ScopeStack → Prop}
    (bindLocal : ∀ s name value, motive s → motive (s.bindLocal name value))
    (takeResult : ∀ s, motive s → motive (s.modifyTop fun f => { f with result := none }))
    (h : Passage change) {c : Context} (before : motive c.scopes) : motive (change c).scopes := by
  cases h with
  | bindParams definition args =>
    exact Interpreter.bindParams_induction bindLocal before definition args
  | arrive =>
    rw [Interpreter.scopes_arrive]
    exact before
  | takeResult => exact takeResult _ before

/-- The way into and out of a definition takes no steps. -/
lemma steps (h : Passage change) (c : Context) : (change c).steps = c.steps := by
  cases h with
  | bindParams definition args => rfl
  | arrive =>
    rw [Interpreter.arrive]
    split <;> rfl
  | takeResult => rfl

/-- The way into and out of a definition defines nothing. -/
lemma definitions (h : Passage change) (c : Context) : (change c).definitions = c.definitions := by
  cases h with
  | bindParams definition args => rfl
  | arrive =>
    rw [Interpreter.arrive]
    split <;> rfl
  | takeResult => rfl

/-- What changes of scopes and of results keep of every frame is the same for all of them on the way
into and out of a definition. -/
lemma map {α : Type} {g : Frame → α} (h : Passage change)
    (scope : ∀ f frame, g (Frame.mapScope f frame) = g frame)
    (result : ∀ value (frame : Frame), g { frame with result := value } = g frame) (c : Context) :
    (change c).scopes.toList.map g = c.scopes.toList.map g := by
  cases h with
  | bindParams definition args => exact Interpreter.map_bindParams scope definition args c.scopes
  | arrive => rw [Interpreter.scopes_arrive]
  | takeResult => exact congrArg (· :: c.scopes.below.map g) (result none c.scopes.top)

/-- The way into and out of a definition stays in the call. -/
lemma shape (h : Passage change) (c : Context) : (change c).scopes.shape = c.scopes.shape :=
  h.map Frame.identity_mapScope (fun _ _ => rfl) c

/-- The way into and out of a definition enters and leaves no other call. -/
lemma depth (h : Passage change) (c : Context) :
    (change c).scopes.depth = c.scopes.depth :=
  ScopeStack.depth_eq_of_shape (h.shape c)

end Evaluation.Passage

end Scriptlet
