import Mathlib.Tactic.Lemma
import Scriptlet.Interpreter.Statements

/-!
# Relations between evaluations

Many facts about runs compare two evaluations, or say of one how its end depends on its start. Both
are relations between evaluations, and every one of them is carried through the interpreter in the
same way. `Relation.Lockstep` is what a relation needs to be carried through words, arguments and
sequences, whose contexts may differ in what none of these looks at, and `Relation.Framing` what it
needs to be carried through calls, where a second relation holds inside the frame of a call.
`Relation.Sequential` and `Relation.Framed` are the same for relations that hold of evaluations in
one and the same context. `run_rel` carries such a relation through all of a run.
-/

namespace Scriptlet

/-- Neither the interpreter nor the base library can tell the contexts apart, but for the else-chains
of the frames, the number of steps and that of the calls in progress. -/
structure Context.LooksLike (c c' : Context) : Prop where
  get? : ∀ name, c.get? name = c'.get? name
  definition? : ∀ kind name, c.definition? kind name = c'.definition? kind name
  flow : c.flow = c'.flow
  result : c.scopes.top.result = c'.scopes.top.result
  enclosing? : ∀ name,
    (c.scopes.enclosing? name).isSome = (c'.scopes.enclosing? name).isSome
  definitionAbove? : c.scopes.definitionAbove?.isSome = c'.scopes.definitionAbove?.isSome

/-- A context looks like itself. -/
lemma Context.LooksLike.refl (c : Context) : c.LooksLike c :=
  ⟨fun _ => rfl, fun _ _ => rfl, rfl, rfl, fun _ => rfl, rfl⟩

/-- Contexts that look alike are interrupted alike. -/
lemma Context.LooksLike.isInterrupted {c c' : Context} (h : c.LooksLike c') :
    c.isInterrupted = c'.isInterrupted := by
  rw [Context.isInterrupted, Context.isInterrupted, h.flow]

namespace Evaluation

variable {σ τ α β : Type}

/-- An evaluation goes on with the value of the one before. -/
lemma bind_of_ok {x : Evaluation σ α} {s s' : State σ} {value : α}
    (h : x s = some (.ok value, s')) (f : α → Evaluation σ β) : (x >>= f) s = f value s' := by
  show andThen x f s = _
  rw [andThen, h]

/-- After an error nothing follows. -/
lemma bind_of_error {x : Evaluation σ α} {s s' : State σ} {error : RuntimeError}
    (h : x s = some (.error error, s')) (f : α → Evaluation σ β) :
    (x >>= f) s = some (.error error, s') := by
  show andThen x f s = _
  rw [andThen, h]

/-- How an evaluation ends that goes on after another one. -/
lemma bind_cases {x : Evaluation σ α} {f : α → Evaluation σ β} {s s' : State σ}
    {result : Except RuntimeError β} (h : (x >>= f) s = some (result, s')) :
    (∃ value s₁, x s = some (.ok value, s₁) ∧ f value s₁ = some (result, s')) ∨
      ∃ error, x s = some (.error error, s') ∧ result = .error error := by
  change andThen x f s = _ at h
  cases e : x s with
  | none =>
    rw [andThen, e] at h
    cases h
  | some ended =>
    obtain ⟨_ | value, s₁⟩ := ended
    · rw [andThen, e] at h
      cases h
      exact .inr ⟨_, rfl, rfl⟩
    · rw [andThen, e] at h
      exact .inl ⟨value, s₁, rfl, h⟩

/-- What goes on after an evaluation ends well only if that does. -/
lemma bind_ok {x : Evaluation σ α} {f : α → Evaluation σ β} {s s' : State σ} {value : β}
    (h : (x >>= f) s = some (.ok value, s')) :
    ∃ first s₁, x s = some (.ok first, s₁) ∧ f first s₁ = some (.ok value, s') := by
  rcases bind_cases h with goes_on | ⟨_, _, failed⟩
  · exact goes_on
  · cases failed

/-- An attempt ends where its evaluation does, and always well. -/
lemma attempt_cases {x : Evaluation σ α} {s s' : State σ}
    {result : Except RuntimeError (Except RuntimeError α)}
    (h : attempt x s = some (result, s')) : ∃ inner, x s = some (inner, s') ∧ result = .ok inner := by
  rw [attempt] at h
  cases ended : x s with
  | none =>
    rw [ended] at h
    cases h
  | some first =>
    rw [ended] at h
    cases h
    exact ⟨_, rfl, rfl⟩

/-- Going on after an attempt is going on after its result, whichever it is. -/
lemma attempt_bind_eq_some {x : Evaluation σ α} {f : Except RuntimeError α → Evaluation σ β}
    {s : State σ} {ended : Except RuntimeError β × State σ} :
    (attempt x >>= f) s = some ended ↔
      ∃ inner s₁, x s = some (inner, s₁) ∧ f inner s₁ = some ended := by
  show andThen (attempt x) f s = _ ↔ _
  rw [andThen, attempt]
  cases x s with
  | none =>
    constructor
    · intro h
      cases h
    · rintro ⟨inner, s₁, h, -⟩
      cases h
  | some first =>
    obtain ⟨inner, s₁⟩ := first
    constructor
    · intro h
      exact ⟨inner, s₁, rfl, h⟩
    · rintro ⟨_, _, h, rest⟩
      cases h
      exact rest

/-- How an evaluation in a frame ends: as it does without the frame, which is left, and an error
gets a place. -/
lemma inFrame_cases {x : Evaluation σ α} {frame : Frame} {s s' : State σ}
    {result : Except RuntimeError α} (h : inFrame frame x s = some (result, s')) :
    ∃ inner s₁, x (withScopes (·.push frame) s) = some (inner, s₁) ∧
      s' = withScopes (·.pop) s₁ ∧
      ((∃ value, inner = .ok value ∧ result = .ok value) ∨
        ∃ error, inner = .error error ∧
          result = .error (error.locate frame.call.location s₁.context.scopes.backtrace)) := by
  rw [inFrame] at h
  split at h
  · cases h
  · rename_i value s₁ e
    cases h
    exact ⟨_, s₁, e, rfl, .inl ⟨value, rfl, rfl⟩⟩
  · rename_i error s₁ e
    cases h
    exact ⟨_, s₁, e, rfl, .inr ⟨error, rfl, rfl⟩⟩

/-- An error that leaves a frame was placed there. -/
lemma inFrame_error_cases {x : Evaluation σ α} {frame : Frame} {s s' : State σ}
    {error : RuntimeError} (h : inFrame frame x s = some (.error error, s')) :
    ∃ inner s₁, x (withScopes (·.push frame) s) = some (.error inner, s₁) ∧
      error = inner.locate frame.call.location s₁.context.scopes.backtrace := by
  obtain ⟨inner, s₁, failed, -, ⟨value, rfl, same⟩ | ⟨error, rfl, same⟩⟩ := inFrame_cases h
  · cases same
  · cases same
    exact ⟨error, s₁, failed, rfl⟩

/-- A value leaves a frame as it is. -/
lemma inFrame_ok {x : Evaluation σ α} {frame : Frame} {s s' : State σ} {value : α}
    (h : inFrame frame x s = some (.ok value, s')) :
    ∃ s₁, x (withScopes (·.push frame) s) = some (.ok value, s₁) ∧ s' = withScopes (·.pop) s₁ := by
  obtain ⟨inner, s₁, ended, left, ⟨_, rfl, same⟩ | ⟨_, _, failed⟩⟩ := inFrame_cases h
  · cases same
    exact ⟨s₁, ended, left⟩
  · cases failed

/-- A value that is there in the frame is there behind it. -/
lemma inFrame_of_ok {x : Evaluation σ α} {frame : Frame} {s s' : State σ} {value : α}
    (h : x (withScopes (·.push frame) s) = some (.ok value, s')) :
    inFrame frame x s = some (.ok value, withScopes (·.pop) s') := by
  rw [inFrame, h]

/-- An evaluation in a frame fails if it does without, and the error gets a place. -/
lemma inFrame_of_error {x : Evaluation σ α} {frame : Frame} {s s' : State σ} {error : RuntimeError}
    (h : x (withScopes (·.push frame) s) = some (.error error, s')) :
    inFrame frame x s =
      some (.error (error.locate frame.call.location s'.context.scopes.backtrace),
        withScopes (·.pop) s') := by
  rw [inFrame, h]

/-- Going on after an attempt that passes every error on is going on after the evaluation. -/
lemma attempt_bind {x : Evaluation σ α} {f : Except RuntimeError α → Evaluation σ β}
    (passes : ∀ error, f (.error error) = raise error) :
    (attempt x >>= f) = x >>= fun value => f (.ok value) := by
  funext s
  show andThen (attempt x) f s = andThen x _ s
  cases e : x s with
  | none => simp [andThen, attempt, e]
  | some ended =>
    obtain ⟨_ | value, s₁⟩ := ended
    · simp [andThen, attempt, e, passes, raise]
    · simp [andThen, attempt, e]

/-- Parts may be put together in any order. -/
lemma bind_assoc {γ : Type} (x : Evaluation σ α) (f : α → Evaluation σ β)
    (g : β → Evaluation σ γ) : (x >>= f) >>= g = x >>= fun value => f value >>= g := by
  funext s
  show andThen (andThen x f) g s = andThen x (fun value => andThen (f value) g) s
  rw [andThen, andThen, andThen]
  cases x s with
  | none => rfl
  | some ended => obtain ⟨_ | value, s₁⟩ := ended <;> rfl

/-- To give on the value does nothing. -/
lemma bind_pure_self (x : Evaluation σ α) : (x >>= fun value => Pure.pure value) = x := by
  funext s
  show andThen x (fun value => Pure.pure value) s = x s
  rw [andThen]
  rcases x s with _ | ⟨_ | _, _⟩ <;> rfl

/-- Carrying out one action after another is one evaluation after another. -/
lemma ofAction_bind (body : Evaluation σ Unit) (arguments : Evaluation σ (List String))
    (rounds : Nat) (action : Action σ α) (next : α → Action σ β) :
    ofAction body arguments rounds (action >>= next) =
      ofAction body arguments rounds action >>= fun value =>
        ofAction body arguments rounds (next value) := by
  induction action with
  | done answer => rfl
  | raise error => rfl
  | inspect rest ih => exact funext fun s => congrFun (ih s.context) s
  | update change rest ih => exact funext fun s => congrFun ih _
  | readHost rest ih => exact funext fun s => congrFun (ih s.host) s
  | writeHost host rest ih => exact funext fun s => congrFun ih _
  | runBody rest ih => exact (congrArg (_ >>= ·) (funext fun _ => ih _)).trans (bind_assoc _ _ _).symm
  | rereadArgs rest ih =>
    exact (congrArg (_ >>= ·) (funext fun _ => ih _)).trans (bind_assoc _ _ _).symm
  | rounds rest ih => exact ih rounds
  | exhausted => rfl

/-- To run the body is to run the body. -/
lemma ofAction_body (body : Evaluation σ Unit) (arguments : Evaluation σ (List String))
    (rounds : Nat) : ofAction body arguments rounds .body = body := by
  show attempt body >>= _ = body
  rw [attempt_bind fun error => rfl]
  exact bind_pure_self body

/-- To evaluate the arguments again is to evaluate them. -/
lemma ofAction_arguments (body : Evaluation σ Unit) (arguments : Evaluation σ (List String))
    (rounds : Nat) : ofAction body arguments rounds .arguments = arguments := by
  show attempt arguments >>= _ = arguments
  rw [attempt_bind fun error => rfl]
  exact bind_pure_self arguments

/-- A relation between evaluations on two kinds of states. -/
abbrev Relation (σ τ : Type) : Type 1 :=
  ∀ ⦃α : Type⦄, Evaluation σ α → Evaluation τ α → Prop

/-- The relation holds of what is put together from evaluations of which it holds, in contexts that
look alike, and of the fault of a name without a variable. -/
structure Relation.Lockstep (rel : Relation σ τ) : Prop where
  pure {α : Type} (value : α) : rel (Pure.pure value) (Pure.pure value)
  bind {α β : Type} {x : Evaluation σ α} {y : Evaluation τ α} {f : α → Evaluation σ β}
    {g : α → Evaluation τ β} :
    rel x y → (∀ value, rel (f value) (g value)) → rel (x >>= f) (y >>= g)
  context {β : Type} {f : Context → Evaluation σ β} {g : Context → Evaluation τ β} :
    (∀ c c', c.LooksLike c' → rel (f c) (g c')) →
    rel (Evaluation.context >>= f) (Evaluation.context >>= g)
  noVariable {α : Type} (location : Location) (name : String) :
    rel (Evaluation.failAt location (.noVariable name) : Evaluation σ α)
      (Evaluation.failAt location (.noVariable name))

/-- The relation holds of every fault at a place as well. -/
structure Relation.Placing (rel : Relation σ τ) : Prop extends Relation.Lockstep rel where
  failAt {α : Type} (location : Location) (fault : Fault) :
    rel (Evaluation.failAt location fault : Evaluation σ α) (Evaluation.failAt location fault)
  noVariable := fun location name => failAt location (.noVariable name)

/-- The relation holds as well of what depends on the number of calls in progress, if there is a
ceiling for it. -/
structure Relation.Serving (rel : Relation σ τ) (ceiling : Nat) : Prop
    extends Relation.Placing rel where
  calls {β : Type} {f : Context → Evaluation σ β} {g : Context → Evaluation τ β} :
    (∀ c c', c.LooksLike c' → (ceiling = 0 ∨ c.scopes.depth = c'.scopes.depth) → rel (f c) (g c')) →
    rel (Evaluation.context >>= f) (Evaluation.context >>= g)

/-- The relation holds of what is put together from evaluations of which it holds, and of faults at
a place. -/
structure Relation.Sequential (rel : Relation σ τ) : Prop where
  pure {α : Type} (value : α) : rel (Pure.pure value) (Pure.pure value)
  bind {α β : Type} {x : Evaluation σ α} {y : Evaluation τ α} {f : α → Evaluation σ β}
    {g : α → Evaluation τ β} :
    rel x y → (∀ value, rel (f value) (g value)) → rel (x >>= f) (y >>= g)
  context {β : Type} {f : Context → Evaluation σ β} {g : Context → Evaluation τ β} :
    (∀ c, rel (f c) (g c)) → rel (Evaluation.context >>= f) (Evaluation.context >>= g)
  failAt {α : Type} (location : Location) (fault : Fault) :
    rel (Evaluation.failAt location fault : Evaluation σ α) (Evaluation.failAt location fault)

/-- What is handed on with every fault is handed on with those that have places. -/
lemma Relation.Sequential.placing {rel : Relation σ τ} (h : rel.Sequential) : rel.Placing where
  pure := h.pure
  bind := h.bind
  context hf := h.context fun c => hf c c (.refl c)
  failAt := h.failAt

/-- What is handed on through any evaluation is handed on through calls. -/
lemma Relation.Sequential.serving {rel : Relation σ τ} (h : rel.Sequential) (ceiling : Nat) :
    rel.Serving ceiling where
  toPlacing := h.placing
  calls hf := h.context fun c => hf c c (.refl c) (.inr rfl)

/-- The relation holds of every error as well. A fault at a place is an error that depends on the
context alone. -/
structure Relation.Monadic (rel : Relation σ τ) : Prop extends Relation.Sequential rel where
  raise {α : Type} (error : RuntimeError) :
    rel (Evaluation.raise error : Evaluation σ α) (Evaluation.raise error)
  failAt := fun _ _ => context fun _ => raise _

/-- The changes that a call of a definition makes to the context by itself. -/
inductive Passage : (Context → Context) → Prop
  | bindParams (definition : Definition) (args : List String) :
    Passage fun c => c.withScopes (Interpreter.bindParams definition args)
  | arrive : Passage Interpreter.arrive
  | takeResult :
    Passage fun c => c.withScopes (·.modifyTop fun f => { f with result := none })

/-- The relation `inner` holds in the frames of calls of what definitions do by themselves, in
contexts that look alike, and wherever `outer` holds. -/
structure Relation.Framing (outer inner : Relation σ τ) (it : Interpreter σ) (it' : Interpreter τ) :
    Prop where
  inside : inner.Placing
  fail {α : Type} (fault : Fault) :
    inner (Evaluation.fail fault : Evaluation σ α) (Evaluation.fail fault)
  enter {α : Type} {x : Evaluation σ α} {y : Evaluation τ α} : outer x y → inner x y
  notify (event : Event) :
    inner (Evaluation.notify it.observe event) (Evaluation.notify it'.observe event)
  passage {change : Context → Context} :
    Passage change → inner (Evaluation.modify change) (Evaluation.modify change)

/-- The relation `inner` holds in the frames of calls of what definitions do by themselves, and
wherever `outer` holds. -/
structure Relation.Framed (outer inner : Relation σ τ) (it : Interpreter σ) (it' : Interpreter τ) :
    Prop where
  outside : outer.Sequential
  inside : inner.Sequential
  fail {α : Type} (fault : Fault) :
    inner (Evaluation.fail fault : Evaluation σ α) (Evaluation.fail fault)
  enter {α : Type} {x : Evaluation σ α} {y : Evaluation τ α} : outer x y → inner x y
  notify (event : Event) :
    inner (Evaluation.notify it.observe event) (Evaluation.notify it'.observe event)
  passage {change : Context → Context} :
    Passage change → inner (Evaluation.modify change) (Evaluation.modify change)

/-- What holds in frames, and around them, holds around those who have them. -/
lemma Relation.Framed.framing {outer inner : Relation σ τ} {it : Interpreter σ}
    {it' : Interpreter τ} (h : outer.Framed inner it it') : outer.Framing inner it it' where
  inside := h.inside.placing
  fail := h.fail
  enter := h.enter
  notify := h.notify
  passage := h.passage

end Evaluation

open Evaluation

namespace Word

variable {σ τ : Type} {rel : Relation σ τ} {expand : Expand σ} {expand' : Expand τ}

mutual

/-- Words evaluate alike if their expansions do. -/
lemma evaluate_lockstep (h : rel.Lockstep)
    (expands : ∀ origin name args, rel (expand origin name args) (expand' origin name args)) :
    ∀ word : Word Token, rel (word.evaluate expand) (word.evaluate expand')
  | literal origin content => by
    rw [evaluate, evaluate]
    exact h.pure content
  | reference origin name => by
    rw [evaluate, evaluate]
    refine h.bind (evaluate_lockstep h expands name) fun value => h.context fun c c' like => ?_
    rw [like.get?]
    cases c'.get? value with
    | none => exact h.noVariable _ _
    | some text => exact h.pure text
  | substitution origin name args => by
    rw [evaluate, evaluate]
    exact expands origin name args
  | vector origin target => by
    rw [evaluate, evaluate]
    exact h.bind (evaluate_lockstep h expands target) fun value => h.pure _
  | glued pieces => by
    rw [evaluate, evaluate]
    exact h.bind (evaluateAll_lockstep h expands pieces) fun values => h.pure _

/-- Words are evaluated in lockstep, if their expansions are. -/
lemma evaluateAll_lockstep (h : rel.Lockstep)
    (expands : ∀ origin name args, rel (expand origin name args) (expand' origin name args)) :
    ∀ words : List (Word Token), rel (evaluateAll expand words) (evaluateAll expand' words)
  | [] => by
    rw [evaluateAll, evaluateAll]
    exact h.pure []
  | word :: words => by
    rw [evaluateAll, evaluateAll]
    refine h.bind (evaluate_lockstep h expands word) fun value => ?_
    exact h.bind (evaluateAll_lockstep h expands words) fun values => h.pure _

end

/-- The arguments of a word are evaluated in lockstep, if its expansions are. -/
lemma slots_lockstep (h : rel.Lockstep)
    (expands : ∀ origin name args, rel (expand origin name args) (expand' origin name args))
    (word : Word Token) : rel (word.slots expand) (word.slots expand') := by
  refine h.bind (evaluate_lockstep h expands word) fun value => ?_
  cases word with
  | vector origin target => exact h.pure _
  | _ => exact h.pure _

/-- A literal is one argument. -/
lemma slots_literal (expand : Expand σ) (origin : Token) (content : String) :
    (literal origin content).slots expand = pure [content] := by
  rw [slots, evaluate]
  rfl

/-- Arguments are evaluated in lockstep, if their expansions are. -/
lemma arguments_lockstep (h : rel.Lockstep)
    (expands : ∀ origin name args, rel (expand origin name args) (expand' origin name args)) :
    ∀ words : List (Word Token), rel (arguments expand words) (arguments expand' words)
  | [] => h.pure []
  | word :: words =>
    h.bind (slots_lockstep h expands word) fun _ =>
      h.bind (arguments_lockstep h expands words) fun _ => h.pure _

/-- Arguments are related, if their expansions are. -/
lemma arguments_rel (h : rel.Sequential)
    (expands : ∀ origin name args, rel (expand origin name args) (expand' origin name args))
    (words : List (Word Token)) : rel (arguments expand words) (arguments expand' words) :=
  arguments_lockstep h.placing.toLockstep expands words

end Word

namespace Interpreter

variable {σ τ : Type} {outer inner : Relation σ τ} {it : Interpreter σ} {it' : Interpreter τ}
  {run : Node Token → Evaluation σ Unit} {run' : Node Token → Evaluation τ Unit}
  {expand : Expand σ} {expand' : Expand τ}

section

variable (h : outer.Framing inner it it')
include h

/-- Bodies do alike if pieces of a script do. A call without a body fails in its own frame. -/
lemma runBody_lockstep (runs : ∀ node, outer (run node) (run' node)) (site : CallSite)
    (name : String) : inner (runBody run site name) (runBody run' site name) := by
  unfold runBody
  cases site.body with
  | none => exact h.fail _
  | some body => exact h.enter (runs _)

/-- Definitions run in lockstep, if what they run does. -/
lemma runDefinition_lockstep (runs : ∀ node, outer (run node) (run' node))
    (definition : Definition) (args : List String) :
    inner (runDefinition run definition args) (runDefinition run' definition args) := by
  unfold runDefinition
  cases arityFault? definition args.length with
  | some fault => exact h.fail fault
  | none =>
    refine h.inside.bind (h.passage (.bindParams definition args)) fun _ => ?_
    refine h.inside.bind (h.enter (runs _)) fun _ => ?_
    refine h.inside.bind (h.passage .arrive) fun _ => h.inside.context fun c c' like => ?_
    rw [like.result]
    exact h.inside.bind (h.passage .takeResult) fun _ => h.inside.pure _

/-- Handlers serve a call alike if they do alike what they say. -/
lemma handle_lockstep {rounds rounds' : Nat} {site : CallSite} {call : ActiveCall}
    {handler : Handler σ} {handler' : Handler τ}
    (acts : inner
      (ofAction (runBody run site call.name) (Word.arguments expand site.args) rounds
        (handler.invoke ⟨call, site.node, site.body⟩))
      (ofAction (runBody run' site call.name) (Word.arguments expand' site.args) rounds'
        (handler'.invoke ⟨call, site.node, site.body⟩))) :
    inner (it.handle run expand rounds site call handler)
      (it'.handle run' expand' rounds' site call handler') :=
  h.inside.bind (h.notify _) fun _ => acts

/-- Calls are served alike in their frames if definitions and handlers serve them alike. -/
lemma dispatch_lockstep (runs : ∀ node, outer (run node) (run' node)) {rounds rounds' : Nat}
    {site : CallSite} (definition : Option Definition) {call : ActiveCall}
    (handles : Option.Rel
      (fun handler handler' => inner (it.handle run expand rounds site call handler)
        (it'.handle run' expand' rounds' site call handler'))
      (Chain.handlerFor? (it.registry.chain call.kind) call.name)
      (Chain.handlerFor? (it'.registry.chain call.kind) call.name)) :
    inner (it.dispatch run expand rounds site definition call)
      (it'.dispatch run' expand' rounds' site definition call) := by
  unfold dispatch
  cases definition with
  | some definition =>
    exact h.inside.bind (h.notify _) fun _ => runDefinition_lockstep h runs definition call.args
  | none =>
    revert handles
    cases Chain.handlerFor? (it.registry.chain call.kind) call.name <;>
      cases Chain.handlerFor? (it'.registry.chain call.kind) call.name <;> intro handles
    · exact h.fail _
    · cases handles
    · cases handles
    · cases handles with
      | some related => exact related

end

/-- Where a definition ends nothing happens to the frames. -/
@[simp]
lemma scopes_arrive (c : Context) : (arrive c).scopes = c.scopes := by
  rw [arrive]
  split <;> rfl

/-- How a call of a definition ends: at once if it was given the wrong number of arguments, else as
its body does, and a body that ends well has handed over the result. -/
lemma runDefinition_cases {definition : Definition} {args : List String} {s s' : State σ}
    {result : Except RuntimeError (Option String)}
    (h : runDefinition run definition args s = some (result, s')) :
    (∃ fault, result = .error (.ofFault fault) ∧ s' = s) ∨
      ∃ inner s₁, run (.statement definition.body) (withScopes (bindParams definition args) s) =
          some (inner, s₁) ∧
        ((∃ error, inner = .error error ∧ result = .error error ∧ s' = s₁) ∨
          inner = .ok () ∧ result = .ok s₁.context.scopes.top.result ∧
            s' = ⟨(arrive s₁.context).withScopes (·.modifyTop fun f => { f with result := none }),
              s₁.host⟩) := by
  unfold runDefinition at h
  cases arity : arityFault? definition args.length with
  | some fault =>
    rw [arity] at h
    cases h
    exact .inl ⟨fault, rfl, rfl⟩
  | none =>
    rw [arity] at h
    refine .inr ?_
    rcases bind_cases h with ⟨_, s₀, bound, rest⟩ | ⟨_, failed, _⟩
    · cases bound
      rcases bind_cases rest with ⟨_, s₁, ran, arrived⟩ | ⟨error, failed, rfl⟩
      · cases arrived
        refine ⟨.ok (), s₁, ran, .inr ⟨rfl, ?_, rfl⟩⟩
        show Except.ok (arrive s₁.context).scopes.top.result = _
        rw [scopes_arrive]
      · exact ⟨.error error, s', failed, .inl ⟨error, rfl, rfl, rfl⟩⟩
    · cases failed

/-- Bodies are related, if what they run is. -/
lemma runBody_rel (h : outer.Framed inner it it') (runs : ∀ node, outer (run node) (run' node))
    (site : CallSite) (name : String) : inner (runBody run site name) (runBody run' site name) :=
  runBody_lockstep h.framing runs site name

/-- Runs of a definition are related, if what they run is. -/
lemma runDefinition_rel (h : outer.Framed inner it it')
    (runs : ∀ node, outer (run node) (run' node)) (definition : Definition) (args : List String) :
    inner (runDefinition run definition args) (runDefinition run' definition args) :=
  runDefinition_lockstep h.framing runs definition args

/-- Handlers serve calls alike, if their actions are related. -/
lemma handle_rel (h : outer.Framed inner it it') {rounds rounds' : Nat} {site : CallSite}
    {call : ActiveCall} {handler : Handler σ} {handler' : Handler τ}
    (acts : inner
      (ofAction (runBody run site call.name) (Word.arguments expand site.args) rounds
        (handler.invoke ⟨call, site.node, site.body⟩))
      (ofAction (runBody run' site call.name) (Word.arguments expand' site.args) rounds'
        (handler'.invoke ⟨call, site.node, site.body⟩))) :
    inner (it.handle run expand rounds site call handler)
      (it'.handle run' expand' rounds' site call handler') :=
  handle_lockstep h.framing acts

/-- Calls are served alike, if the definitions run alike and the handlers serve alike. -/
lemma dispatch_rel (h : outer.Framed inner it it') (runs : ∀ node, outer (run node) (run' node))
    {rounds rounds' : Nat} {site : CallSite} (definition : Option Definition) {call : ActiveCall}
    (handles : Option.Rel
      (fun handler handler' => inner (it.handle run expand rounds site call handler)
        (it'.handle run' expand' rounds' site call handler'))
      (Chain.handlerFor? (it.registry.chain call.kind) call.name)
      (Chain.handlerFor? (it'.registry.chain call.kind) call.name)) :
    inner (it.dispatch run expand rounds site definition call)
      (it'.dispatch run' expand' rounds' site definition call) :=
  dispatch_lockstep h.framing runs definition handles

/-- Sequences do alike if their statements do. -/
lemma sequence_lockstep {run : Statement Token → Evaluation σ Unit}
    {run' : Statement Token → Evaluation τ Unit} (h : outer.Lockstep)
    (runs : ∀ statement, outer (run statement) (run' statement)) :
    ∀ statements, outer (sequence run statements) (sequence run' statements)
  | [] => h.pure ()
  | statement :: rest => by
    refine h.context fun c c' like => ?_
    rw [like.isInterrupted]
    split
    · exact h.pure ()
    · exact h.bind (runs statement) fun _ => sequence_lockstep h runs rest

/-- On the way out no statement is run. -/
lemma sequence_of_interrupted {run : Statement Token → Evaluation σ Unit} {s : State σ}
    (interrupted : s.context.isInterrupted = true) (statements : List (Statement Token)) :
    sequence run statements s = some (.ok (), s) := by
  cases statements with
  | nil => rfl
  | cons statement rest =>
    show (if s.context.isInterrupted then Pure.pure () else _ : Evaluation σ Unit) s = _
    rw [if_pos interrupted]
    rfl

/-- As long as nothing interrupts, the first statement runs and then the others. -/
lemma sequence_of_next {run : Statement Token → Evaluation σ Unit} {s : State σ}
    (next : s.context.isInterrupted = false) (statement : Statement Token)
    (rest : List (Statement Token)) :
    sequence run (statement :: rest) s = (run statement >>= fun _ => sequence run rest) s := by
  show (if s.context.isInterrupted then Pure.pure () else _ : Evaluation σ Unit) s = _
  rw [next]
  rfl

/-- Statements in order are some of them and then the others. -/
lemma sequence_append (run : Statement Token → Evaluation σ Unit)
    (before behind : List (Statement Token)) :
    sequence run (before ++ behind) = sequence run before >>= fun _ => sequence run behind := by
  induction before with
  | nil => rfl
  | cons statement rest ih =>
    funext s
    cases flow : s.context.isInterrupted with
    | true =>
      rw [bind_of_ok (sequence_of_interrupted flow _), sequence_of_interrupted flow,
        sequence_of_interrupted flow]
    | false =>
      show _ = andThen (sequence run (statement :: rest)) _ s
      rw [andThen, sequence_of_next flow, List.cons_append, sequence_of_next flow, ih, ← bind_assoc]
      rfl

/-- Statements that end without an interruption began without one. -/
lemma next_of_sequence {run : Statement Token → Evaluation σ Unit}
    {statements : List (Statement Token)} {s s' : State σ}
    (ran : sequence run statements s = some (.ok (), s')) (goes_on : s'.context.flow = .next) :
    s.context.flow = .next := by
  by_cases next : s.context.flow = .next
  · exact next
  · have interrupted : s.context.isInterrupted = true := decide_eq_true next
    cases (sequence_of_interrupted interrupted statements).symm.trans ran
    exact goes_on

/-- Statements that are gone through to their end are run one after the other. -/
lemma sequence_cons_ok {run : Statement Token → Evaluation σ Unit} {statement : Statement Token}
    {rest : List (Statement Token)} {s s' : State σ}
    (ran : sequence run (statement :: rest) s = some (.ok (), s')) (goes_on : s'.context.flow = .next) :
    ∃ s₁, run statement s = some (.ok (), s₁) ∧ s₁.context.flow = .next ∧
      sequence run rest s₁ = some (.ok (), s') := by
  have start : s.context.isInterrupted = false := by
    rw [Context.isInterrupted, next_of_sequence ran goes_on]
    rfl
  rw [sequence_of_next start] at ran
  obtain ⟨_, s₁, first, others⟩ := bind_ok ran
  exact ⟨s₁, first, next_of_sequence others goes_on, others⟩

/-- How a call ends that no definition serves: at once, if no handler answers to its name, else as the
handler of it ends. -/
lemma dispatch_cases {rounds : Nat} {site : CallSite} {call : ActiveCall} {s s' : State σ}
    {result : Except RuntimeError (Option String)}
    (h : it.dispatch run expand rounds site none call s = some (result, s')) :
    (∃ fault, result = .error (.ofFault fault) ∧ s' = s) ∨
      ∃ handler, Chain.handlerFor? (it.registry.chain call.kind) call.name = some handler ∧
        it.handle run expand rounds site call handler s = some (result, s') := by
  unfold dispatch at h
  dsimp only at h
  cases found : Chain.handlerFor? (it.registry.chain call.kind) call.name with
  | none =>
    rw [found] at h
    cases h
    exact .inl ⟨_, rfl, rfl⟩
  | some handler =>
    rw [found] at h
    exact .inr ⟨handler, rfl, h⟩

/-- How a call ends: where it began, if it is not made, which is no error after a stop, and else as it
does in a frame of its own. -/
lemma serve_cases {rounds : Nat} {site : CallSite} {name : String} {args : List String}
    {s s' : State σ} {result : Except RuntimeError String}
    (served : it.serve run expand rounds site name args s = some (result, s')) :
    (s' = s ∧ ∀ value, result = .ok value → s.context.flow = .stopped ∧ value = "") ∨
      s.context.flow ≠ .stopped ∧
        let call : ActiveCall := ⟨name, site.kind, args, site.location⟩
        let definition := s.context.definition? site.kind name
        ∃ inner, inFrame (.ofCall call definition.isSome)
            (it.dispatch run expand rounds site definition call) s = some (inner, s') ∧
          ∀ value, result = .ok value → ∃ answer, inner = .ok answer ∧ value = answer.getD "" := by
  rw [serve] at served
  split at served
  · cases served
    exact .inl ⟨rfl, nofun⟩
  change (if s.context.isStopped then _ else _ : Evaluation σ String) s = _ at served
  split at served
  · rename_i stopped
    cases served
    exact .inl ⟨rfl, fun _ same => ⟨of_decide_eq_true stopped, (Except.ok.inj same).symm⟩⟩
  split at served
  · cases served
    exact .inl ⟨rfl, nofun⟩
  · rename_i goes_on _
    refine .inr ⟨fun stopped => goes_on (decide_eq_true stopped), ?_⟩
    rcases bind_cases served with ⟨answer, s₁, called, answered⟩ | ⟨error, failed, rfl⟩
    · cases answered
      exact ⟨_, called, fun _ same => ⟨answer, rfl, (Except.ok.inj same).symm⟩⟩
    · exact ⟨_, failed, nofun⟩

/-- How a call ends well: after a stop it is not made, and else it is served in a frame of its own. -/
lemma serve_ok {rounds : Nat} {site : CallSite} {name : String} {args : List String}
    {s s' : State σ} {value : String}
    (served : it.serve run expand rounds site name args s = some (.ok value, s')) :
    s.context.flow = .stopped ∧ value = "" ∧ s' = s ∨
      s.context.flow ≠ .stopped ∧
        let call : ActiveCall := ⟨name, site.kind, args, site.location⟩
        let definition := s.context.definition? site.kind name
        ∃ answer, value = answer.getD "" ∧
          inFrame (.ofCall call definition.isSome)
            (it.dispatch run expand rounds site definition call) s = some (.ok answer, s') := by
  rcases serve_cases served with ⟨same, stopped⟩ | ⟨goes_on, inner, called, answers⟩
  · obtain ⟨flow, empty⟩ := stopped value rfl
    exact .inl ⟨flow, empty, same⟩
  · obtain ⟨answer, rfl, answered⟩ := answers value rfl
    exact .inr ⟨goes_on, answer, answered, called⟩

/-- Under the same ceiling for calls in progress, calls are served alike if they are in their
frames. -/
lemma serve_lockstep (h : outer.Serving it.limits.maxCallDepth)
    (ceilings : it.limits.maxCallDepth = it'.limits.maxCallDepth) {rounds rounds' : Nat}
    {site : CallSite} {name : String} {args : List String}
    (dispatches : ∀ definition,
      let call : ActiveCall := ⟨name, site.kind, args, site.location⟩
      outer
        (inFrame (.ofCall call definition.isSome)
          (it.dispatch run expand rounds site definition call))
        (inFrame (.ofCall call definition.isSome)
          (it'.dispatch run' expand' rounds' site definition call))) :
    outer (it.serve run expand rounds site name args)
      (it'.serve run' expand' rounds' site name args) := by
  unfold serve
  rw [← ceilings]
  split
  · exact h.failAt _ _
  · refine h.calls fun c c' like depth => ?_
    have deep : (0 < it.limits.maxCallDepth && it.limits.maxCallDepth ≤ c.scopes.depth) =
        (0 < it.limits.maxCallDepth && it.limits.maxCallDepth ≤ c'.scopes.depth) := by
      rcases depth with none | depth
      · rw [none]
        rfl
      · rw [depth]
    rw [Context.isStopped, Context.isStopped, like.flow, deep, like.definition?]
    split
    · exact h.pure ""
    · split
      · exact h.failAt _ _
      · exact h.bind (dispatches _) fun answer => h.pure _

/-- Calls are related, if what serves them is and the ceilings on their depth are the same. -/
lemma serve_rel (h : outer.Sequential)
    (ceilings : it.limits.maxCallDepth = it'.limits.maxCallDepth) {rounds rounds' : Nat}
    {site : CallSite} {name : String} {args : List String}
    (dispatches : ∀ definition,
      let call : ActiveCall := ⟨name, site.kind, args, site.location⟩
      outer
        (inFrame (.ofCall call definition.isSome)
          (it.dispatch run expand rounds site definition call))
        (inFrame (.ofCall call definition.isSome)
          (it'.dispatch run' expand' rounds' site definition call))) :
    outer (it.serve run expand rounds site name args)
      (it'.serve run' expand' rounds' site name args) :=
  serve_lockstep (h.serving _) ceilings dispatches

/-- Calls are made in lockstep, if their arguments are evaluated so and they are served so. -/
lemma call_lockstep (h : outer.Lockstep)
    (expands : ∀ origin name args, outer (expand origin name args) (expand' origin name args))
    {rounds rounds' : Nat} {site : CallSite}
    (serves : ∀ name args, outer (it.serve run expand rounds site name args)
      (it'.serve run' expand' rounds' site name args)) :
    outer (it.call run expand rounds site) (it'.call run' expand' rounds' site) := by
  refine h.bind (Word.slots_lockstep h expands site.name) fun named => ?_
  exact h.bind (Word.arguments_lockstep h expands site.args) fun given => serves _ _

/-- Calls are related, if their arguments are and so is what serves them. -/
lemma call_rel (h : outer.Sequential)
    (expands : ∀ origin name args, outer (expand origin name args) (expand' origin name args))
    {rounds rounds' : Nat} {site : CallSite}
    (serves : ∀ name args, outer (it.serve run expand rounds site name args)
      (it'.serve run' expand' rounds' site name args)) :
    outer (it.call run expand rounds site) (it'.call run' expand' rounds' site) :=
  call_lockstep h.placing.toLockstep expands serves

/-- Pieces of a script do alike if their calls are served alike. Only a control call makes one. -/
lemma perform_lockstep (h : outer.Placing) (runs : ∀ node, outer (run node) (run' node))
    (expands : ∀ origin name args, outer (expand origin name args) (expand' origin name args))
    {rounds rounds' : Nat} {node : Node Token}
    (serves : ∀ site name args, (site.kind = .control → node.kind = .control) →
      outer (it.serve run expand rounds site name args)
        (it'.serve run' expand' rounds' site name args)) :
    outer (it.perform run expand rounds node) (it'.perform run' expand' rounds' node) := by
  have calls : ∀ site, (site.kind = .control → node.kind = .control) →
      outer (it.call run expand rounds site) (it'.call run' expand' rounds' site) :=
    fun site within => call_lockstep h.toLockstep expands fun name args => serves site name args within
  cases node with
  | script body => exact sequence_lockstep h.toLockstep (fun s => runs _) body
  | statement statement =>
    cases statement with
    | block origin body => exact sequence_lockstep h.toLockstep (fun s => runs _) body
    | command name args => exact h.bind (calls _ nofun) fun _ => h.pure ()
    | control origin name args body => exact h.bind (calls _ fun _ => rfl) fun _ => h.pure ()
  | arguments args => exact h.failAt _ _
  | word word => exact h.failAt _ _

/-- What a piece of a script does is related, if its statements and its calls are. -/
lemma perform_rel (h : outer.Sequential) (runs : ∀ node, outer (run node) (run' node))
    (expands : ∀ origin name args, outer (expand origin name args) (expand' origin name args))
    {rounds rounds' : Nat}
    (serves : ∀ site name args, outer (it.serve run expand rounds site name args)
      (it'.serve run' expand' rounds' site name args)) (node : Node Token) :
    outer (it.perform run expand rounds node) (it'.perform run' expand' rounds' node) :=
  perform_lockstep h.placing runs expands fun site name args _ => serves site name args

/-- Under the same ceiling for steps, steps are alike if counting and telling of them is. -/
lemma step_rel (h : outer.Sequential) (ceilings : it.limits.maxSteps = it'.limits.maxSteps)
    (counts : outer (Evaluation.modify fun c => { c with steps := c.steps + 1 })
      (Evaluation.modify fun c => { c with steps := c.steps + 1 }))
    (tells : ∀ event, outer (Evaluation.notify it.observe event)
      (Evaluation.notify it'.observe event)) (location : Location) :
    outer (it.step location) (it'.step location) := by
  refine h.bind counts fun _ => h.bind (tells _) fun _ => h.context fun c => ?_
  rw [ceilings]
  split
  · exact h.failAt _ _
  · exact h.pure ()

/-- Runs with more fuel on one side are alike if steps are and if calls are served alike whenever
what they start is alike. -/
lemma run_rel (it : Interpreter σ) (it' : Interpreter τ) (h : outer.Sequential) (extra : Nat)
    (steps : ∀ location, outer (it.step location) (it'.step location))
    (counts : outer (countStatement : Evaluation σ Unit) countStatement)
    (serves : ∀ fuel,
      (∀ node, outer (it.runNode fuel node) (it'.runNode (extra + fuel) node)) →
      (∀ origin name args, outer (it.expand fuel origin name args)
        (it'.expand (extra + fuel) origin name args)) →
      ∀ site name args, outer (it.serve (it.runNode fuel) (it.expand fuel) fuel site name args)
        (it'.serve (it'.runNode (extra + fuel)) (it'.expand (extra + fuel)) (extra + fuel)
          site name args))
    (starves : (∀ node, outer exhausted (it'.runNode extra node)) ∧
      ∀ origin name args, outer exhausted (it'.expand extra origin name args)) (fuel : Nat) :
    (∀ node, outer (it.runNode fuel node) (it'.runNode (extra + fuel) node)) ∧
      ∀ origin name args, outer (it.expand fuel origin name args)
        (it'.expand (extra + fuel) origin name args) := by
  -- runs and expansions start each other with one unit of fuel less
  induction fuel with
  | zero =>
    refine ⟨fun node => ?_, fun origin name args => ?_⟩
    · rw [runNode]
      exact starves.1 node
    · rw [expand]
      exact starves.2 origin name args
  | succ fuel ih =>
    obtain ⟨runs, expands⟩ := ih
    have served := serves fuel runs expands
    refine ⟨fun node => ?_, fun origin name args => ?_⟩
    · show outer (it.runNode (fuel + 1) node) (it'.runNode (extra + fuel + 1) node)
      rw [runNode, runNode]
      refine h.bind (steps _) fun _ => h.bind counts fun _ => ?_
      exact perform_rel h runs expands served node
    · show outer (it.expand (fuel + 1) origin name args)
        (it'.expand (extra + fuel + 1) origin name args)
      rw [Interpreter.expand, Interpreter.expand]
      exact h.bind (steps _) fun _ => call_rel h expands (served _)

end Interpreter

end Scriptlet
