import Scriptlet.Console
import Scriptlet.Proofs.Evaluation.Orderly

/-!
# What the base library does to a context

`Update.makers` says which calls of the base library and of the standard streams make which changes,
and `Context.SameFor` which contexts they cannot tell apart. What holds of the steps that this leaves
to a call, and of what is put together from them, holds of every call (`Standard.steps`): so every
call is plain (`Standard.plain`).
-/

namespace Scriptlet

variable {σ α β γ : Type} [RandomSource γ]

/-- What the change defines, if anything, has this body. -/
def Update.Takes (body : Option (Statement Token)) (change : Update) : Prop :=
  ∀ definition, change = .define definition → body = some definition.body

/-- The calls of the base library and of the standard streams that make a change. -/
def Update.makers : Update → List (CallKind × String)
  | set _ _ => [(.command, "set"), (.command, "input"), (.control, "for")]
  | unset _ => [(.command, "unset"), (.control, "for")]
  | declareGlobal _ => [(.command, "global")]
  | declareNonlocal _ => [(.command, "nonlocal")]
  | setChain _ => [(.control, "if"), (.control, "elif"), (.control, "else")]
  | leave _ => [(.command, "return")]
  | stop => [(.command, "stop")]
  | define _ => [(.control, "def")]

/-- The changes that a call of this kind and name makes. -/
def MadeBy (kind : CallKind) (name : String) (change : Update) : Prop :=
  (kind, name) ∈ change.makers

/-- The handlers of the base library and of the standard streams, by the kind of their calls. -/
inductive Standard (random : Slot σ γ) (streams : Slot σ Streams) :
    CallKind → Handler σ → Prop
  | commands : Standard random streams .command Library.commands.toHandler
  | stdio : Standard random streams .command (Library.stdio streams)
  | controls : Standard random streams .control Library.controls.toHandler
  | arithmetic : Standard random streams .expansion Library.arithmetic.toHandler
  | comparison : Standard random streams .expansion Library.comparison.toHandler
  | logic : Standard random streams .expansion Library.logic.toHandler
  | vectors : Standard random streams .expansion Library.vectors.toHandler
  | random : Standard random streams .expansion (Library.random random)

/-- A key of a table made from pairs has a value that it was paired with. -/
lemma Table.mem_of_get?_ofList {κ : Type} [DecidableEq κ] {pairs : List (κ × α)} {key : κ}
    {value : α} (h : (Table.ofList pairs).get? key = some value) : (key, value) ∈ pairs := by
  suffices ∀ t : Table κ α,
      (pairs.foldl (fun t pair => t.insert pair.1 pair.2) t).get? key = some value →
      (key, value) ∈ pairs ∨ t.get? key = some value by
    rcases this .empty h with paired | none
    · exact paired
    · cases none
  clear h
  induction pairs with
  | nil => exact fun t h => .inr h
  | cons pair rest ih =>
    intro t h
    rcases ih _ h with later | earlier
    · exact .inl (List.mem_cons_of_mem _ later)
    · rw [Table.get?_insert] at earlier
      split at earlier
      · rename_i same
        cases earlier
        exact .inl (same ▸ List.mem_cons_self)
      · exact .inr earlier

/-- A handler made from callbacks serves a call by the one that it finds for its name. -/
lemma Callbacks.invoke_of_find? {callbacks : Callbacks σ} {call : Call} {callback : Callback σ}
    (found : callbacks.find? call.name = some callback) :
    callbacks.toHandler.invoke call = callback call := by
  unfold toHandler
  dsimp only
  rw [found]

/-- What holds of the callback that is found for a name and of the failure without one holds of what
a handler made from callbacks does. -/
lemma Callbacks.invoke_of_each {holds : Action σ (Option String) → Prop} {t : Callbacks σ}
    {call : Call} (fail : ∀ fault, holds (.fail fault))
    (found : ∀ callback, t.find? call.name = some callback → holds (callback call)) :
    holds (t.toHandler.invoke call) := by
  unfold toHandler
  dsimp only
  cases e : t.find? call.name with
  | none => exact fail _
  | some callback => exact found callback e

/-- A call of this kind and name asks whether the else-chain around it is open. -/
def AsksForChain (kind : CallKind) (name : String) : Prop :=
  kind = .control ∧ (name = "elif" ∨ name = "else")

/-- No call of this kind and name in the base library can tell the contexts apart: they look alike,
and if the call asks for it, the else-chains around it are alike. -/
structure Context.SameFor (kind : CallKind) (name : String) (c c' : Context) : Prop where
  looks : c.LooksLike c'
  chain : AsksForChain kind name → c.scopes.parent.chainOpen = c'.scopes.parent.chainOpen

namespace Action

/-- A property of actions, whatever they answer. -/
abbrev Property (σ : Type) : Type 1 :=
  ∀ ⦃α : Type⦄, Action σ α → Prop

/-- The property holds of the steps that calls of this kind and name take in the base library and at
the standard streams, and of what is put together from actions of which it holds. A loop whose rounds
are not counted beforehand is one step. -/
structure Property.Stepwise (kind : CallKind) (name : String) (holds : Property σ) : Prop where
  pure {α : Type} (answer : α) : holds (Pure.pure answer : Action σ α)
  fail {α : Type} (fault : Fault) : holds (Action.fail fault : Action σ α)
  bind {α β : Type} {action : Action σ α} {next : α → Action σ β} :
    holds action → (∀ value, holds (next value)) → holds (action >>= next)
  inspect {α : Type} {rest : Context → Action σ α} :
    (∀ c c', Context.SameFor kind name c c' → rest c = rest c') →
    (∀ c, holds (rest c)) →
    holds (.inspect rest)
  change {change : Update} : MadeBy kind name change → holds (Action.change change)
  use {τ ρ : Type} (slot : Slot σ τ) (f : τ → ρ × τ) : holds (slot.use f)
  body : kind = .control → holds Action.body
  loop (condition : String) : kind = .control →
    holds (.rounds fun rounds => Library.whileRounds rounds condition)

namespace Property.Stepwise

variable {kind : CallKind} {name : String} {holds : Property σ}

/-- An answer that may be a fault is a step. -/
lemma ofExcept (steps : holds.Stepwise kind name) (result : Except Fault α) :
    holds (Action.ofExcept result) := by
  cases result with
  | ok answer => exact steps.pure answer
  | error fault => exact steps.fail fault

/-- To answer something adds no step. -/
lemma answers (steps : holds.Stepwise kind name) {action : Action σ α} {answer : α → β}
    (h : holds action) : holds (action >>= fun value => Pure.pure (answer value)) :=
  steps.bind h fun _ => steps.pure _

/-- Whether execution is on its way out can be told by every call. -/
lemma interrupted (steps : holds.Stepwise kind name) : holds Action.interrupted := by
  refine steps.inspect (fun c c' same => ?_) fun c => steps.pure _
  rw [same.looks.isInterrupted]

/-- A call that asks for it can tell whether the chain around it is open. -/
lemma chainOpen (steps : holds.Stepwise kind name) (asks : AsksForChain kind name) :
    holds Action.chainOpen :=
  steps.inspect (fun _ _ same => congrArg Action.done (same.chain asks)) fun _ => steps.pure _

end Property.Stepwise

end Action

namespace Library

variable {kind : CallKind} {name : String} {holds : Action.Property σ}

/-- An assignment takes its steps. -/
lemma set_steps (steps : holds.Stepwise .command "set") (call : Call) : holds (set call) :=
  steps.bind (steps.ofExcept _) fun _ =>
    steps.answers (steps.change (by simp [MadeBy, Update.makers]))

/-- What holds of doing something for each name holds of doing it for all. -/
lemma forEach_steps (steps : holds.Stepwise kind name) {change : String → Action σ Unit}
    (each : ∀ item, holds (change item)) (items : List String) : holds (forEach change items) := by
  induction items with
  | nil => exact steps.pure ()
  | cons item items ih => exact steps.bind (each item) fun _ => ih

/-- A variable is taken away in steps. -/
lemma unset_steps (steps : holds.Stepwise .command "unset") (call : Call) : holds (unset call) := by
  refine steps.bind (steps.ofExcept _) fun _ => steps.answers (forEach_steps steps (fun item => ?_) _)
  refine steps.bind (steps.inspect (fun c c' same => ?_) fun c => ?_) fun _ =>
    steps.change (by simp [MadeBy, Update.makers])
  · rw [same.looks.get?]
  · cases c.get? item with
    | none => exact steps.fail _
    | some value => exact steps.pure value

/-- Names are made global in steps. -/
lemma global_steps (steps : holds.Stepwise .command "global") (call : Call) :
    holds (global call) :=
  steps.bind (steps.ofExcept _) fun _ =>
    steps.answers
      (forEach_steps steps (fun _ => steps.change (by simp [MadeBy, Update.makers])) _)

/-- Names are made nonlocal in steps. -/
lemma nonlocal_steps (steps : holds.Stepwise .command "nonlocal") (call : Call) :
    holds (nonlocal call) := by
  refine steps.bind (steps.ofExcept _) fun _ => steps.answers (forEach_steps steps (fun item => ?_) _)
  -- where the name leads cannot be told, but whether it leads anywhere can
  refine steps.inspect (fun c c' same => ?_) fun c => ?_
  · have found := same.looks.enclosing? item
    dsimp only [Action.andThen]
    revert found
    cases c.scopes.enclosing? item <;> cases c'.scopes.enclosing? item <;> simp
  · dsimp only [Action.andThen]
    cases c.scopes.enclosing? item with
    | none => exact steps.fail _
    | some target => exact steps.change (by simp [MadeBy, Update.makers])

/-- A definition is left in steps. -/
lemma leave_steps (steps : holds.Stepwise .command "return") (call : Call) : holds (leave call) := by
  refine steps.inspect (fun c c' same => ?_) fun c => ?_
  · have inside := same.looks.definitionAbove?
    dsimp only [Action.andThen]
    revert inside
    cases c.scopes.definitionAbove? <;> cases c'.scopes.definitionAbove? <;> simp
  · dsimp only [Action.andThen]
    cases c.scopes.definitionAbove? with
    | none => exact steps.answers (steps.fail _)
    | some above => exact steps.answers (steps.change (by simp [MadeBy, Update.makers]))

/-- A run is stopped in steps. -/
lemma stop_steps (steps : holds.Stepwise .command "stop") (call : Call) : holds (stop call) :=
  steps.answers (steps.change (by simp [MadeBy, Update.makers]))

/-- A body is repeated in steps. -/
lemma repeatBody_steps (steps : holds.Stepwise .control name) (times : Nat) :
    holds (repeatBody times) := by
  induction times with
  | zero => exact steps.pure ()
  | succ times ih =>
    refine steps.bind (steps.body rfl) fun _ => steps.bind steps.interrupted fun isInterrupted => ?_
    cases isInterrupted with
    | true => exact steps.pure ()
    | false => exact ih

/-- A counted loop takes its steps. -/
lemma repeatTimes_steps (steps : holds.Stepwise .control "repeat") (call : Call) :
    holds (repeatTimes call) :=
  steps.bind (steps.ofExcept _) fun _ => steps.bind (steps.ofExcept _) fun _ =>
    steps.answers (repeatBody_steps steps _)

/-- A body is run for each item in steps. -/
lemma forItems_steps (steps : holds.Stepwise .control "for") (name : String) (items : List String) :
    holds (forItems name items) := by
  induction items with
  | nil => exact steps.pure ()
  | cons item items ih =>
    refine steps.bind (steps.change (by simp [MadeBy, Update.makers])) fun _ => ?_
    refine steps.bind (steps.body rfl) fun _ => steps.bind steps.interrupted fun isInterrupted => ?_
    cases isInterrupted with
    | true => exact steps.pure ()
    | false => exact ih

/-- A loop over items takes its steps. -/
lemma forIn_steps (steps : holds.Stepwise .control "for") (call : Call) : holds (forIn call) := by
  refine steps.bind (steps.ofExcept _) fun _ => ?_
  dsimp only
  split
  · split
    · refine steps.bind (forItems_steps steps _ _) fun _ => ?_
      exact steps.answers (steps.change (by simp [MadeBy, Update.makers]))
    · exact steps.answers (steps.fail _)
  · exact steps.pure _

/-- Choosing sets the chain, and runs the body at most once. -/
lemma choose_steps (steps : holds.Stepwise .control name)
    (may : ∀ isOpen, MadeBy .control name (.setChain isOpen)) (condition : String) :
    holds (choose condition) := by
  refine steps.bind (steps.change (may _)) fun _ => ?_
  split
  · exact steps.body rfl
  · exact steps.pure ()

/-- An `if` takes its steps. -/
lemma ifTrue_steps (steps : holds.Stepwise .control "if") (call : Call) : holds (ifTrue call) := by
  refine steps.bind (steps.ofExcept _) fun _ => steps.bind (steps.ofExcept _) fun condition => ?_
  exact steps.answers (choose_steps steps (by simp [MadeBy, Update.makers]) condition)

/-- An `elif` takes its steps. -/
lemma elseIf_steps (steps : holds.Stepwise .control "elif") (call : Call) :
    holds (elseIf call) := by
  refine steps.bind (steps.ofExcept _) fun _ => ?_
  refine steps.bind (steps.chainOpen ⟨rfl, .inl rfl⟩) fun isOpen => ?_
  cases isOpen with
  | true =>
    refine steps.bind (steps.ofExcept _) fun condition => ?_
    exact steps.answers (choose_steps steps (by simp [MadeBy, Update.makers]) condition)
  | false => exact steps.pure _

/-- An `else` takes its steps. -/
lemma otherwise_steps (steps : holds.Stepwise .control "else") (call : Call) :
    holds (otherwise call) := by
  refine steps.bind (steps.ofExcept _) fun _ => ?_
  refine steps.bind (steps.chainOpen ⟨rfl, .inr rfl⟩) fun isOpen => ?_
  cases isOpen with
  | true =>
    refine steps.bind (steps.change (by simp [MadeBy, Update.makers])) fun _ => ?_
    exact steps.answers (steps.body rfl)
  | false => exact steps.pure _

/-- A loop on a condition takes its steps. -/
lemma whileTrue_steps (steps : holds.Stepwise .control "while") (call : Call) :
    holds (whileTrue call) :=
  steps.bind (steps.ofExcept _) fun _ => steps.bind (steps.ofExcept _) fun condition =>
    steps.answers (steps.loop condition rfl)

/-- A call is defined in steps. -/
lemma define_steps (steps : holds.Stepwise .control "def") (call : Call) : holds (define call) := by
  refine steps.bind (steps.ofExcept _) fun _ => ?_
  dsimp only
  split
  · exact steps.answers (steps.fail _)
  · refine steps.bind (steps.ofExcept _) fun definition => ?_
    exact steps.answers (steps.change (by simp [MadeBy, Update.makers]))

/-- Whether a callback only looks at its call. -/
def IsPure (callback : Callback σ) : Prop :=
  ∃ answer, callback = pureExpansion answer

/-- An expansion whose answer depends on its arguments only is pure. -/
@[simp]
lemma isPure_pureExpansion (answer : Call → Except Fault String) :
    IsPure (pureExpansion answer : Callback σ) :=
  ⟨answer, rfl⟩

/-- Expansions that only look at their calls take no other steps, by whatever names they go. -/
lemma isPure_steps (steps : holds.Stepwise kind name) {t : Callbacks σ}
    {calls : List (String × Callback σ)} (table : t.calls = .ofList calls)
    (each : ∀ entry ∈ calls, IsPure entry.2) (call : Call) : holds (t.toHandler.invoke call) := by
  refine Callbacks.invoke_of_each steps.fail ?_
  intro callback found
  rw [Callbacks.find?, table] at found
  obtain ⟨answer, rfl⟩ := each _ (Table.mem_of_get?_ofList found)
  exact steps.answers (steps.ofExcept _)

/-- A random expansion takes its steps. -/
lemma random_steps (steps : holds.Stepwise kind name) (slot : Slot σ γ) (call : Call) :
    holds ((Library.random slot).invoke call) := by
  unfold Library.random
  dsimp only
  split
  · exact steps.bind (steps.ofExcept _) fun _ => steps.use slot _
  · exact steps.answers (steps.use slot _)
  · refine steps.bind (steps.ofExcept _) fun _ => steps.bind (steps.ofExcept _) fun _ => ?_
    exact steps.bind (steps.ofExcept _) fun _ => steps.answers (steps.use slot _)
  · exact steps.fail _

section

variable {holds : CallKind → String → Action.Property σ}
  (steps : ∀ kind name, (holds kind name).Stepwise kind name)
include steps

/-- Each callback takes the steps of the name under which it is registered. -/
lemma ofList_steps {kind : CallKind} {calls : List (String × Callback σ)}
    (each : ∀ entry ∈ calls, ∀ call, holds kind entry.1 (entry.2 call)) (call : Call) :
    holds kind call.name ((Callbacks.ofList calls).toHandler.invoke call) := by
  refine Callbacks.invoke_of_each (steps kind call.name).fail ?_
  intro callback found
  exact each _ (Table.mem_of_get?_ofList found) call

/-- The commands of the base library have every property that their steps have. -/
lemma commands_steps (call : Call) :
    holds .command call.name (commands.toHandler.invoke call) := by
  refine ofList_steps steps (fun entry h => ?_) call
  simp only [List.mem_cons, List.not_mem_nil, or_false] at h
  rcases h with rfl | rfl | rfl | rfl | rfl | rfl
  · exact set_steps (steps _ _)
  · exact unset_steps (steps _ _)
  · exact global_steps (steps _ _)
  · exact nonlocal_steps (steps _ _)
  · exact leave_steps (steps _ _)
  · exact stop_steps (steps _ _)

/-- The control calls of the base library have every property that their steps have. -/
lemma controls_steps (call : Call) :
    holds .control call.name (controls.toHandler.invoke call) := by
  refine ofList_steps steps (fun entry h => ?_) call
  simp only [List.mem_cons, List.not_mem_nil, or_false] at h
  rcases h with rfl | rfl | rfl | rfl | rfl | rfl | rfl
  · exact repeatTimes_steps (steps _ _)
  · exact forIn_steps (steps _ _)
  · exact ifTrue_steps (steps _ _)
  · exact elseIf_steps (steps _ _)
  · exact otherwise_steps (steps _ _)
  · exact whileTrue_steps (steps _ _)
  · exact define_steps (steps _ _)

/-- Printing and reading have every property that their steps have. -/
lemma stdio_steps (slot : Slot σ Streams) (call : Call) :
    holds .command call.name ((Library.stdio slot).invoke call) := by
  have steps := steps .command call.name
  unfold Library.stdio
  dsimp only
  split
  · exact steps.bind (steps.use slot _) fun _ => steps.answers (steps.ofExcept _)
  · rename_i name
    refine steps.bind (steps.ofExcept _) fun _ => steps.bind (steps.use slot _) fun _ => ?_
    refine steps.bind (steps.ofExcept _) fun _ => steps.answers (steps.change ?_)
    rw [name]
    simp [MadeBy, Update.makers]
  · exact steps.fail _

end

end Library

/-- What holds of the steps of every call of the base library and of the standard streams holds of the
calls. -/
theorem Standard.steps {random : Slot σ γ} {streams : Slot σ Streams} {kind : CallKind}
    {handler : Handler σ} {holds : CallKind → String → Action.Property σ}
    (steps : ∀ kind name, (holds kind name).Stepwise kind name)
    (h : Standard random streams kind handler) (call : Call) :
    holds kind call.name (handler.invoke call) := by
  cases h with
  | commands => exact Library.commands_steps steps call
  | stdio => exact Library.stdio_steps steps streams call
  | controls => exact Library.controls_steps steps call
  | arithmetic => exact Library.isPure_steps (steps _ _) rfl (by simp) call
  | comparison => exact Library.isPure_steps (steps _ _) rfl (by simp) call
  | logic => exact Library.isPure_steps (steps _ _) rfl (by simp) call
  | vectors => exact Library.isPure_steps (steps _ _) rfl (by simp) call
  | random => exact Library.random_steps (steps _ _) random call

namespace Library

/-- The loop gives up only when the condition still holds after a round for each it was given. -/
lemma whileRounds_plain {allowed : Update → Prop} {m n : Nat} (le : m ≤ n) (condition : String) :
    Action.PlainShort allowed m (whileRounds m condition : Action σ _)
      (whileRounds n condition) := by
  -- the rounds go together with the rounds of the loop that is given more of them
  induction m generalizing n condition with
  | zero =>
    rw [whileRounds]
    split
    · exact .exhausted _
    · cases n <;> rw [whileRounds, if_neg ‹_›] <;> exact .done ()
  | succ m ih =>
    have positive : 0 < n := Nat.lt_of_lt_of_le m.succ_pos le
    obtain ⟨n, rfl⟩ := Nat.exists_eq_add_of_le' (Nat.succ_le_of_lt positive)
    rw [whileRounds, whileRounds]
    split
    · refine .body (.inspect fun c => ?_)
      show Action.PlainShort allowed m (if c.isInterrupted then _ else _)
        (if c.isInterrupted then _ else _)
      split
      · exact .done ()
      · refine .rereadArgs (fun error => rfl) (fun error => rfl) fun args => ?_
        exact ih (Nat.le_of_succ_le_succ le) (Text.unwords args)
    · exact .done ()

/-- The body of a definition is the statement that it was made from. -/
lemma body_of_definitionOf {name : String} {params : List String} {statement : Statement Token}
    {definition : Definition} (h : definitionOf name params statement = .ok definition) :
    definition.body = statement := by
  unfold definitionOf at h
  split at h
  · cases h
  · dsimp only at h
    split at h
    · cases h
    · cases h
      rfl

/-- A definition that is made has the body of the call that makes it. -/
lemma define_takes (call : Call) : (define call : Action σ _).Plain (Update.Takes call.body) := by
  refine .bind (.ofExcept _) fun _ => ?_
  dsimp only
  split
  · exact .bind (.fail _) fun _ => .pure _
  · rename_i statement bodied
    cases made : definitionOf (call.args.head?.getD "") call.args.tail statement with
    | error fault => exact .fail fault
    | ok definition =>
      show Action.Plain _ (Action.change (.define definition) >>= fun _ => pure none)
      refine .bind (.change fun other same => ?_) fun _ => .pure _
      cases same
      rw [bodied, body_of_definitionOf made]

end Library

/-- Being plain is a matter of the steps. -/
lemma Action.Plain.stepwise (kind : CallKind) (name : String) :
    Property.Stepwise (σ := σ) kind name fun _ action => action.Plain (MadeBy kind name) where
  pure := .pure
  fail := .fail
  bind := .bind
  inspect _ := .inspect
  change := .change
  use := .use
  body _ := .body
  loop condition _ _ := .rounds fun _ _ le => Library.whileRounds_plain le condition

/-- Every call of the base library and of the standard streams is plain and makes no changes but
those of its kind and name. -/
theorem Standard.plain {random : Slot σ γ} {streams : Slot σ Streams} {kind : CallKind}
    {handler : Handler σ} (h : Standard random streams kind handler) (call : Call) :
    (handler.invoke call).Plain (MadeBy kind call.name) :=
  h.steps Action.Plain.stepwise call

/-- No call of the base library or of the standard streams defines anything but its own body. -/
lemma Standard.takes {random : Slot σ γ} {streams : Slot σ Streams} {kind : CallKind}
    {handler : Handler σ} (h : Standard random streams kind handler) (call : Call) :
    (handler.invoke call).Plain (Update.Takes call.body) := by
  by_cases defines : (kind, call.name) = (.control, "def")
  · obtain ⟨rfl, name⟩ := Prod.mk.inj defines
    cases h with
    | controls =>
      refine Callbacks.invoke_of_each .fail fun callback found => ?_
      rw [name] at found
      cases found
      exact Library.define_takes call
  · refine (h.plain call).mono fun change made definition same => absurd ?_ defines
    subst same
    exact List.mem_singleton.1 made

/-- A handler of the base library or of the standard streams, or an orderly one of the host. -/
def Served (random : Slot σ γ) (streams : Slot σ Streams) (kind : CallKind)
    (handler : Handler σ) : Prop :=
  Standard random streams kind handler ∨ handler.Orderly

/-- Every handler that is served so is orderly. -/
lemma Served.orderly {random : Slot σ γ} {streams : Slot σ Streams} {kind : CallKind}
    {handler : Handler σ} (h : Served random streams kind handler) : handler.Orderly := by
  rcases h with standard | orderly
  · exact fun call => (standard.plain call).orderly.mono fun _ _ => trivial
  · exact orderly

/-- A table keeps the pairs that it had, but for the value of the key. -/
lemma Table.mem_put {κ : Type} [DecidableEq κ] {key : κ} {value : α} {entries : List (κ × α)}
    {entry : κ × α} (mem : entry ∈ Table.put key value entries) :
    entry ∈ entries ∨ entry = (key, value) := by
  induction entries with
  | nil => exact .inr (List.mem_singleton.1 mem)
  | cons first rest ih =>
    obtain ⟨k, v⟩ := first
    rw [Table.put] at mem
    split at mem
    · rename_i same
      rcases List.mem_cons.1 mem with rfl | later
      · exact .inr (by rw [same])
      · exact .inl (List.mem_cons_of_mem _ later)
    · rcases List.mem_cons.1 mem with rfl | later
      · exact .inl List.mem_cons_self
      · exact (ih later).imp_left (List.mem_cons_of_mem _)

section

variable {serving : CallKind → Handler σ → Prop} {it : Interpreter σ}

/-- A handler that is of the kind may be added. -/
lemma Interpreter.Uses.addHandler (uses : it.Uses serving) {kind : CallKind} (name : String)
    {handler : Handler σ} (served : serving kind handler) :
    (it.addHandler kind name handler).Uses serving := by
  intro other entry mem
  cases kind <;> cases other
  case command.command | control.control | expansion.expansion =>
    rcases Table.mem_put mem with before | rfl
    · exact uses _ entry before
    · exact served
  all_goals exact uses _ entry mem

/-- Adding the base library adds nothing but its handlers. -/
lemma Library.addBase_uses {random : Slot σ γ} {streams : Slot σ Streams}
    (uses : it.Uses serving)
    (standard : ∀ kind handler, Standard random streams kind handler → serving kind handler) :
    (addBase random it).Uses serving := by
  have initialized : (it.addInitializer bindTruth).Uses serving := uses
  refine .addHandler (.addHandler (.addHandler (.addHandler (.addHandler (.addHandler (.addHandler
    initialized _ ?_) _ ?_) _ ?_) _ ?_) _ ?_) _ ?_) _ ?_
  · exact standard _ _ .commands
  · exact standard _ _ .controls
  · exact standard _ _ .arithmetic
  · exact standard _ _ .comparison
  · exact standard _ _ .logic
  · exact standard _ _ .vectors
  · exact standard _ _ .random

end

/-- The program uses the base library and the standard streams only. -/
lemma Console.interpreter_uses : Console.interpreter.Uses (Standard generator streams) := by
  refine .addHandler (Library.addBase_uses ?_ fun _ _ => id) _ .stdio
  intro kind entry mem
  cases kind <;> cases mem

end Scriptlet
