import Scriptlet.Interpreter.Run
import Scriptlet.Proofs.Evaluation.Relation

/-!
# What happens in a run

A recorded interpreter does what the interpreter does, on a host that also keeps every event and the
context in which it happened. Recording changes nothing (`runPiece_recorded`), so the moments of a
run are well defined, and facts about what happens at any time of a run are facts about them.
-/

namespace Scriptlet

/-- An event of a run and the context in which it happens. -/
structure Moment where
  event : Event
  context : Context

/-- The state of a host together with what has happened. -/
structure Recorded (σ : Type) where
  host : σ
  moments : List Moment

variable {σ α β : Type}

/-- The state without what has happened. -/
def State.forget (s : State (Recorded σ)) : State σ :=
  ⟨s.context, s.host.host⟩

/-- The state in which nothing has happened yet. -/
def State.recorded (s : State σ) : State (Recorded σ) :=
  ⟨s.context, s.host, []⟩

/-- The state with a changed context. -/
def State.onContext (s : State σ) (f : Context → Context) : State σ :=
  { s with context := f s.context }

/-- The same action on a host that keeps what happens. -/
def Action.recorded : Action σ α → Action (Recorded σ) α
  | done answer => .done answer
  | raise error => .raise error
  | inspect rest => .inspect fun c => (rest c).recorded
  | update change rest => .update change rest.recorded
  | readHost rest => .readHost fun h => (rest h.host).recorded
  | writeHost host rest => .readHost fun h => .writeHost { h with host := host } rest.recorded
  | runBody rest => .runBody fun error => (rest error).recorded
  | rereadArgs rest => .rereadArgs fun args => (rest args).recorded
  | rounds rest => .rounds fun n => (rest n).recorded
  | exhausted => .exhausted

/-- The same handler on a host that keeps what happens. -/
def Handler.recorded (handler : Handler σ) : Handler (Recorded σ) where
  answersTo := handler.answersTo
  invoke call := (handler.invoke call).recorded

/-- The same handlers on a host that keeps what happens. -/
def Chain.recorded (chain : Chain σ) : Chain (Recorded σ) :=
  ⟨chain.entries.map fun entry => (entry.1, entry.2.recorded)⟩

/-- The same interpreter on a host that keeps what happens. -/
def Interpreter.recorded (it : Interpreter σ) : Interpreter (Recorded σ) where
  registry := ⟨it.registry.commands.recorded, it.registry.controls.recorded,
    it.registry.expansions.recorded⟩
  limits := it.limits
  options := it.options
  initializers := it.initializers
  observe event c h := ⟨it.observe event c h.host, h.moments ++ [⟨event, c⟩]⟩

/-- The state after an event was told of and kept. -/
def Interpreter.note (it : Interpreter σ) (event : Event) (s : State (Recorded σ)) :
    State (Recorded σ) :=
  ⟨s.context, it.observe event s.context s.host.host, s.host.moments ++ [⟨event, s.context⟩]⟩

/-- The state after a step was counted and told of. -/
def Interpreter.takeStep (it : Interpreter σ) (location : Location) (s : State (Recorded σ)) :
    State (Recorded σ) :=
  it.note (.step location) { s with context := { s.context with steps := s.context.steps + 1 } }

/-- What happens in an evaluation from a state on, on a host that keeps it. -/
def Evaluation.momentsFrom (x : Evaluation (Recorded σ) α) (s : State σ) : List Moment :=
  match x s.recorded with
  | none => []
  | some (_, s) => s.host.moments

/-- What happens in a run of a piece of a script. -/
def Interpreter.moments (it : Interpreter σ) (node : Node Token) (s : State σ) : List Moment :=
  (it.recorded.runPiece node).momentsFrom s

/-- Actions are recorded one after the other. -/
lemma Action.recorded_bind (action : Action σ α) (next : α → Action σ β) :
    (action >>= next).recorded = action.recorded >>= fun value => (next value).recorded := by
  show (action.andThen next).recorded = action.recorded.andThen fun value => (next value).recorded
  induction action with
  | done answer => rfl
  | raise error => rfl
  | inspect rest ih => exact congrArg Action.inspect (funext ih)
  | update change rest ih => exact congrArg (Action.update change) ih
  | readHost rest ih => exact congrArg Action.readHost (funext fun h => ih h.host)
  | writeHost host rest ih =>
    exact congrArg Action.readHost (funext fun h => congrArg (Action.writeHost _) ih)
  | runBody rest ih => exact congrArg Action.runBody (funext ih)
  | rereadArgs rest ih => exact congrArg Action.rereadArgs (funext ih)
  | rounds rest ih => exact congrArg Action.rounds (funext ih)
  | exhausted => rfl

/-- To run the body is recorded as it is. -/
lemma Action.recorded_body : (Action.body : Action σ Unit).recorded = .body := by
  refine congrArg Action.runBody (funext fun error => ?_)
  cases error <;> rfl

/-- To evaluate the arguments again is recorded as it is. -/
lemma Action.recorded_arguments : (Action.arguments : Action σ _).recorded = .arguments := by
  refine congrArg Action.rereadArgs (funext fun args => ?_)
  cases args <;> rfl

/-- The chains of a recorded interpreter hold the recorded handlers. -/
lemma Interpreter.chain_recorded (it : Interpreter σ) (kind : CallKind) :
    it.recorded.registry.chain kind = (it.registry.chain kind).recorded := by
  cases kind <;> rfl

/-- A recorded chain serves a name by the recording of the handler that served it. -/
lemma Chain.handlerFor?_recorded (chain : Chain σ) (name : String) :
    Chain.handlerFor? chain.recorded name =
      (Chain.handlerFor? chain name).map Handler.recorded := by
  show Chain.firstFor name (chain.entries.map _) = (Chain.firstFor name chain.entries).map _
  induction chain.entries with
  | nil => rfl
  | cons entry rest ih =>
    obtain ⟨registered, handler⟩ := entry
    rw [List.map_cons, Chain.firstFor, Chain.firstFor, ih]
    show (if handler.answersTo name then _ else _) = _
    split <;> rfl

namespace Evaluation

/-- The first evaluation does what the second does, if one forgets what has happened. -/
def Forgets : Relation (Recorded σ) σ := fun _ x y =>
  ∀ s, (x s).map (Prod.map id State.forget) = y s.forget

namespace Forgets

/-- Forgetting commutes with going on. -/
lemma bind {x : Evaluation (Recorded σ) α} {y : Evaluation σ α}
    {f : α → Evaluation (Recorded σ) β} {g : α → Evaluation σ β} (hx : Forgets x y)
    (hf : ∀ value, Forgets (f value) (g value)) : Forgets (x >>= f) (y >>= g) := by
  intro s
  show (andThen x f s).map _ = andThen y g s.forget
  have first := hx s
  rw [andThen, andThen, ← first]
  cases x s with
  | none => rfl
  | some ended =>
    obtain ⟨_ | value, s'⟩ := ended
    · rfl
    · exact hf value s'

/-- Forgetting the record part by part is forgetting it. -/
lemma monadic : Relation.Monadic (Forgets (σ := σ)) where
  pure _ _ := rfl
  raise _ _ := rfl
  bind := bind
  context hf s := hf s.context s

/-- A failure that is taken for a result is one without the record, too. -/
lemma attempt {x : Evaluation (Recorded σ) α} {y : Evaluation σ α} (h : Forgets x y) :
    Forgets (attempt x) (Evaluation.attempt y) := by
  intro s
  have first := h s
  rw [Evaluation.attempt, Evaluation.attempt, ← first]
  cases x s <;> rfl

/-- An action does the same without the record, if what it runs does. -/
lemma ofAction {body : Evaluation (Recorded σ) Unit} {body' : Evaluation σ Unit}
    {arguments : Evaluation (Recorded σ) (List String)} {arguments' : Evaluation σ (List String)}
    (bodies : Forgets body body') (rereads : Forgets arguments arguments') (rounds : Nat)
    (action : Action σ α) :
    Forgets (ofAction body arguments rounds action.recorded)
      (ofAction body' arguments' rounds action) := by
  induction action with
  | done answer => exact monadic.pure answer
  | raise error => exact monadic.raise error
  | inspect rest ih => exact monadic.context ih
  | update change rest ih => exact bind (fun s => rfl) fun _ => ih
  | readHost rest ih => exact fun s => ih s.host.host s
  | writeHost host rest ih => exact fun s => ih { s with host := { s.host with host := host } }
  | runBody rest ih => exact bind bodies.attempt fun result => ih (error? result)
  | rereadArgs rest ih => exact bind rereads.attempt ih
  | rounds rest ih => exact ih rounds
  | exhausted => exact fun s => rfl

/-- In a frame the same happens without the record. -/
lemma inFrame {x : Evaluation (Recorded σ) α} {y : Evaluation σ α} (frame : Frame)
    (h : Forgets x y) : Forgets (inFrame frame x) (Evaluation.inFrame frame y) := by
  intro s
  have first := h (withScopes (·.push frame) s)
  show _ = Evaluation.inFrame frame y s.forget
  rw [Evaluation.inFrame, Evaluation.inFrame]
  change _ = y (withScopes (·.push frame) s.forget) at first
  rw [← first]
  cases x (withScopes (·.push frame) s) with
  | none => rfl
  | some ended =>
    obtain ⟨_ | value, s'⟩ := ended <;> rfl

/-- A recorded interpreter agrees with the interpreter in every call. -/
lemma framed (it : Interpreter σ) : Relation.Framed Forgets Forgets it.recorded it where
  outside := monadic.toSequential
  inside := monadic.toSequential
  fail fault := monadic.raise (.ofFault fault)
  enter h := h
  notify _ _ := rfl
  passage _ _ := rfl

/-- What an evaluation of a recorded interpreter ends in, it ends in as well if one forgets. -/
lemma of_recorded {x : Evaluation (Recorded σ) α} {y : Evaluation σ α} (h : Forgets x y)
    {s s' : State (Recorded σ)} {result : Except RuntimeError α} (ends : x s = some (result, s')) :
    y s.forget = some (result, s'.forget) := by
  rw [← h s, ends]
  rfl

/-- Every end without the record is one with it. -/
lemma exists_recorded {x : Evaluation (Recorded σ) α} {y : Evaluation σ α} (h : Forgets x y)
    {s s' : State σ} {result : Except RuntimeError α} (ends : y s = some (result, s')) :
    x s.recorded = some (result, ⟨s'.context, s'.host, x.momentsFrom s⟩) := by
  have same := h s.recorded
  change _ = y s at same
  rw [ends] at same
  obtain ⟨⟨_, ⟨context, host, happened⟩⟩, e, ended⟩ := Option.map_eq_some_iff.1 same
  cases ended
  rw [momentsFrom, e]
  rfl

end Forgets

end Evaluation

namespace Interpreter

open Evaluation

/-- A step is counted, and then it may turn out to be one too many. -/
lemma step_recorded (it : Interpreter σ) (location : Location) (s : State (Recorded σ)) :
    it.recorded.step location s =
      if 0 < it.limits.maxSteps ∧ it.limits.maxSteps < s.context.steps + 1 then
        failAt location (.stepCeiling it.limits.maxSteps) (it.takeStep location s)
      else some (.ok (), it.takeStep location s) := by
  show (if (_ && _) = true then _ else _ : Evaluation (Recorded σ) Unit) _ = _
  simp only [Bool.and_eq_true, decide_eq_true_eq]
  split
  · rw [if_pos ‹_›]
    rfl
  · rw [if_neg ‹_›]
    rfl

section

variable (it : Interpreter σ) {fuel : Nat}
  (runs : ∀ node, Forgets (it.recorded.runNode fuel node) (it.runNode fuel node))
  (expands : ∀ origin name args,
    Forgets (it.recorded.expand fuel origin name args) (it.expand fuel origin name args))
include runs expands

/-- Handlers serve calls as they do without the record. -/
lemma handle_forgets (site : CallSite) (call : ActiveCall) (handler : Handler σ) :
    Forgets
      (it.recorded.handle (it.recorded.runNode fuel) (it.recorded.expand fuel) fuel site call
        handler.recorded)
      (it.handle (it.runNode fuel) (it.expand fuel) fuel site call handler) := by
  have framed := Forgets.framed it
  refine handle_rel framed ?_
  exact Forgets.ofAction (runBody_rel framed runs site call.name)
    (Word.arguments_rel framed.outside expands site.args) _ _

/-- Recording changes no call if it changes nothing of what the call starts. -/
lemma serve_forgets (site : CallSite) (name : String) (args : List String) :
    Forgets
      (it.recorded.serve (it.recorded.runNode fuel) (it.recorded.expand fuel) fuel site name args)
      (it.serve (it.runNode fuel) (it.expand fuel) fuel site name args) := by
  have framed := Forgets.framed it
  refine serve_rel framed.outside rfl fun definition => Forgets.inFrame _ ?_
  refine dispatch_rel framed runs definition ?_
  rw [chain_recorded, Chain.handlerFor?_recorded]
  cases Chain.handlerFor? (it.registry.chain site.kind) name with
  | none => exact .none
  | some handler => exact .some (it.handle_forgets runs expands site _ handler)

/-- Calls are made as they are without the record. -/
lemma call_forgets (site : CallSite) :
    Forgets (it.recorded.call (it.recorded.runNode fuel) (it.recorded.expand fuel) fuel site)
      (it.call (it.runNode fuel) (it.expand fuel) fuel site) :=
  call_rel (Forgets.framed it).outside expands (it.serve_forgets runs expands site)

end

/-- Whether it is one too many or not, a step has been counted and told of. -/
lemma step_recorded_state {it : Interpreter σ} {location : Location} {s s' : State (Recorded σ)}
    {result : Except RuntimeError Unit} (h : it.recorded.step location s = some (result, s')) :
    s' = it.takeStep location s := by
  rw [step_recorded] at h
  split at h
  · cases h
    rfl
  · cases h
    rfl

/-- The handlers that serve recorded calls are the recorded handlers. -/
lemma dispatch_recorded_cases {it : Interpreter σ} {run : Node Token → Evaluation (Recorded σ) Unit}
    {expand : Expand (Recorded σ)} {rounds : Nat} {site : CallSite} {call : ActiveCall}
    {s s' : State (Recorded σ)} {result : Except RuntimeError (Option String)}
    (h : it.recorded.dispatch run expand rounds site none call s = some (result, s')) :
    (∃ fault, result = .error (.ofFault fault) ∧ s' = s) ∨
      ∃ handler, Chain.handlerFor? (it.registry.chain call.kind) call.name = some handler ∧
        it.recorded.handle run expand rounds site call handler.recorded s = some (result, s') := by
  rcases dispatch_cases h with nothing | ⟨_, found, handled⟩
  · exact .inl nothing
  · rw [chain_recorded, Chain.handlerFor?_recorded] at found
    obtain ⟨handler, serves, rfl⟩ := Option.map_eq_some_iff.1 found
    exact .inr ⟨handler, serves, handled⟩

/-- Recording changes neither runs nor expansions. -/
lemma run_forgets (it : Interpreter σ) (fuel : Nat) :
    (∀ node, Forgets (it.recorded.runNode fuel node) (it.runNode fuel node)) ∧
      ∀ origin name args,
        Forgets (it.recorded.expand fuel origin name args) (it.expand fuel origin name args) := by
  have framed := Forgets.framed it
  have all := run_rel it.recorded it framed.outside 0 ?_ ?_ ?_ ?_ fuel
  · rwa [Nat.zero_add] at all
  · exact step_rel framed.outside rfl (fun s => rfl) framed.notify
  · exact fun s => rfl
  · intro fuel runs expands site name args
    rw [Nat.zero_add] at runs expands ⊢
    exact it.serve_forgets runs expands site name args
  · exact ⟨fun node s => rfl, fun origin name args s => rfl⟩

/-- Recording changes no run. -/
theorem runPiece_recorded (it : Interpreter σ) (node : Node Token) :
    Forgets (it.recorded.runPiece node) (it.runPiece node) := by
  intro s
  have all := (it.run_forgets it.fuel).1 node { s with context := s.context.beginRun }
  change Option.map _ (it.recorded.interpret node _) =
    it.interpret node { s.forget with context := s.forget.context.beginRun } at all
  rw [runPiece, runPiece, ← all]
  cases it.recorded.interpret node { s with context := s.context.beginRun } <;> rfl

/-- A run ends as what it interprets does. -/
lemma runPiece_of_interpret {it : Interpreter σ} {node : Node Token} {s s' : State σ}
    {result : Except RuntimeError Unit}
    (h : it.interpret node { s with context := s.context.beginRun } = some (result, s')) :
    it.runPiece node s = some (result, { s' with context := s'.context.endRun }) := by
  rw [runPiece, h]

/-- A run starts with no steps and no calls, and leaves all calls in the end. -/
lemma interpret_of_runPiece {it : Interpreter σ} {node : Node Token} {s s' : State σ}
    {result : Except RuntimeError Unit} (h : it.runPiece node s = some (result, s')) :
    ∃ s₁, it.interpret node { s with context := s.context.beginRun } = some (result, s₁) ∧
      s' = { s₁ with context := s₁.context.endRun } := by
  rw [runPiece] at h
  cases e : it.interpret node { s with context := s.context.beginRun } with
  | none =>
    rw [e] at h
    cases h
  | some ended =>
    rw [e] at h
    cases h
    exact ⟨_, rfl, rfl⟩

/-- A run ends as the recorded run does, which also says what happened. -/
lemma runPiece_of_recorded {it : Interpreter σ} {node : Node Token} {s : State σ}
    {result : Except RuntimeError Unit} {s' : State (Recorded σ)}
    (h : it.recorded.runPiece node s.recorded = some (result, s')) :
    it.runPiece node s = some (result, s'.forget) ∧ it.moments node s = s'.host.moments := by
  refine ⟨?_, ?_⟩
  · have same := it.runPiece_recorded node s.recorded
    rw [h] at same
    exact same.symm
  · rw [moments, momentsFrom, h]

/-- A run is what is interpreted from its start, and ends with the end of a run. -/
lemma runPiece_eq (it : Interpreter σ) (node : Node Token) (s : State σ) :
    it.runPiece node s =
      (it.recorded.interpret node (s.recorded.onContext .beginRun)).map fun ended =>
        (ended.1, (ended.2.onContext .endRun).forget) := by
  refine (it.runPiece_recorded node s.recorded).symm.trans ?_
  have start : ⟨s.recorded.context.beginRun, s.recorded.host⟩ = s.recorded.onContext .beginRun := rfl
  rw [runPiece, start]
  cases it.recorded.interpret node (s.recorded.onContext .beginRun) <;> rfl

/-- What happens in a run is what has been recorded at its end. -/
lemma moments_eq {it : Interpreter σ} {node : Node Token} {s : State σ} {s' : State (Recorded σ)}
    {result : Except RuntimeError Unit}
    (h : it.recorded.interpret node (s.recorded.onContext .beginRun) = some (result, s')) :
    it.moments node s = s'.host.moments := by
  have ran : it.recorded.runPiece node s.recorded = some (result, s'.onContext .endRun) :=
    runPiece_of_interpret h
  rw [moments, momentsFrom, ran]
  rfl

/-- Every run is one that is recorded. -/
lemma exists_recorded {it : Interpreter σ} {node : Node Token} {s s' : State σ}
    {result : Except RuntimeError Unit} (h : it.runPiece node s = some (result, s')) :
    it.recorded.runPiece node s.recorded =
      some (result, ⟨s'.context, s'.host, it.moments node s⟩) :=
  (it.runPiece_recorded node).exists_recorded h

end Interpreter

end Scriptlet
