import Scriptlet.Proofs.Choice.Order

/-!
# Control calls and the order of statements

However a control call runs its body, it runs it from a state in which the body is ready to be run
again, and only an `elif` or an `else` that found the chain open runs it at all. A definition that
is made has a body that stands in the script.
-/

namespace Scriptlet

open Evaluation

variable {σ α β : Type} {body : List (Statement Token)}

/-- With these parts, an action that starts so ends so if it ends well, and everything stays sound. -/
def Parts.Upholds (body : List (Statement Token)) (parts : Parts σ)
    (pre post : State (Recorded σ) → Prop) (action : Action σ α) : Prop :=
  ∀ s, Sound body s → pre s → ∀ result s',
    ofAction parts.body parts.arguments parts.rounds action.recorded s = some (result, s') →
    Sound body s' ∧ ∀ value, result = .ok value → post s'

namespace Parts.Upholds

variable {parts : Parts σ} {pre mid post : State (Recorded σ) → Prop} {action : Action σ α}

/-- An answer upholds what holds already. -/
lemma pure (answer : α) (now : ∀ s, pre s → post s) :
    parts.Upholds body pre post (Pure.pure answer) := by
  intro s sound start result s' e
  cases e
  exact ⟨sound, fun _ _ => now s start⟩

/-- A fault upholds anything, since nothing follows it. -/
lemma fail (fault : Fault) : parts.Upholds body pre post (Action.fail fault : Action σ α) := by
  intro s sound _ result s' e
  cases e
  exact ⟨sound, nofun⟩

/-- What the first action leaves, the next one starts from. -/
lemma bind {next : α → Action σ β} (h : parts.Upholds body pre mid action)
    (rest : ∀ value, parts.Upholds body mid post (next value)) :
    parts.Upholds body pre post (action >>= next) := by
  intro s sound start result s' e
  rw [Action.recorded_bind, ofAction_bind] at e
  rcases bind_cases e with ⟨value, s₁, first, later⟩ | ⟨error, failed, rfl⟩
  · obtain ⟨sound₁, reached⟩ := h s sound start _ _ first
    exact rest value s₁ sound₁ (reached value rfl) _ _ later
  · obtain ⟨ended, -⟩ := h s sound start _ _ failed
    exact ⟨ended, nofun⟩

/-- What goes on with an answer, unless that is a fault. -/
lemma ofExcept {result : Except Fault α} {next : α → Action σ β}
    (rest : ∀ value, result = .ok value → parts.Upholds body pre post (next value)) :
    parts.Upholds body pre post (Action.ofExcept result >>= next) := by
  cases result with
  | ok value => exact rest value rfl
  | error fault => exact .fail fault

/-- An answer behind an action that is the last to do anything. -/
lemma answers (h : parts.Upholds body pre (fun _ => True) action) (answer : β) :
    parts.Upholds body pre (fun _ => True) (action >>= fun _ => Pure.pure answer) :=
  h.bind fun _ => .pure answer fun _ _ => trivial

/-- An action may start from more than it needs. -/
lemma mono {pre' : State (Recorded σ) → Prop} (imp : ∀ s, Sound body s → pre' s → pre s)
    (h : parts.Upholds body pre post action) : parts.Upholds body pre' post action :=
  fun s sound start => h s sound (imp s sound start)

/-- A change that keeps the order is upheld, if what is wanted behind it holds then. -/
lemma change {change : Update} (sound : ∀ s : State (Recorded σ), Sound body s → pre s →
      Sound body { s with context := s.context.update change })
    (now : ∀ s, pre s → post { s with context := s.context.update change }) :
    parts.Upholds body pre post (Action.change change) := by
  intro s before start result s' e
  cases e
  exact ⟨sound s before start, fun _ _ => now s start⟩

/-- A call that asks whether execution is on its way out goes on if it is not. -/
lemma interrupted {next : Bool → Action σ β}
    (goes_on : parts.Upholds body (fun s => pre s ∧ s.context.flow = .next) post (next false))
    (gives_up : parts.Upholds body pre post (next true)) :
    parts.Upholds body pre post (Action.interrupted >>= next) := by
  intro s sound start result s' e
  change ofAction _ _ _ (next s.context.isInterrupted).recorded s = _ at e
  cases flow : s.context.isInterrupted with
  | true =>
    rw [flow] at e
    exact gives_up s sound start _ _ e
  | false =>
    rw [flow] at e
    exact goes_on s sound ⟨start, by simpa [Context.isInterrupted] using flow⟩ _ _ e

/-- What looks at the chain around the call. -/
lemma chainOpen {next : Bool → Action σ β}
    (rest : ∀ isOpen, parts.Upholds body
      (fun s => pre s ∧ s.context.scopes.parent.chainOpen = isOpen) post (next isOpen)) :
    parts.Upholds body pre post (Action.chainOpen >>= next) :=
  fun s sound start => rest _ s sound ⟨start, rfl⟩

end Parts.Upholds

/-- The definitions stay as they are but for a change that defines something. -/
lemma Context.definitions_update (c : Context) {change : Update}
    (other : ∀ definition, change ≠ .define definition) :
    (c.update change).definitions = c.definitions := by
  cases change with
  | define definition => exact absurd rfl (other definition)
  | leave result =>
    rw [update]
    cases c.scopes.setResult? result <;> rfl
  | _ => rfl

/-- What looks like a sound state in its definitions and in what happened is sound. -/
lemma Sound.congr {s s' : State (Recorded σ)} (h : Sound body s)
    (definitions : s'.context.definitions = s.context.definitions)
    (moments : s'.host.moments = s.host.moments) : Sound body s' where
  known := by
    rw [definitions]
    exact h.known
  lawful := by
    rw [moments]
    exact h.lawful

/-- A change that defines nothing keeps the order of the branches. -/
lemma Sound.update {s : State (Recorded σ)} (h : Sound body s) {change : Update}
    (other : ∀ definition, change ≠ .define definition) :
    Sound body { s with context := s.context.update change } :=
  h.congr (s.context.definitions_update other) rfl

/-- A definition that is made has a body that stands in the script. -/
lemma Sound.define {s : State (Recorded σ)} (h : Sound body s) {definition : Definition}
    (within : Within body definition.body) :
    Sound body { s with context := s.context.update (.define definition) } where
  known key other found := by
    change (s.context.definitions.insert _ definition).get? key = some other at found
    rw [Table.get?_insert] at found
    split at found
    · cases found
      exact within
    · exact h.known key other found
  lawful := h.lawful

/-- An action that runs nothing and defines nothing leaves everything sound. -/
lemma Parts.Upholds.of_confined {parts : Parts σ} {same : Context → Context → Prop}
    {allowed : Update → Prop} (other : ∀ definition, ¬ allowed (.define definition))
    {action : Action σ α} (h : action.Confined same allowed False) :
    parts.Upholds body (fun _ => True) (fun _ => True) action := by
  induction h with
  | done answer => exact .pure answer fun _ _ => trivial
  | raise error =>
    intro s sound _ result s' e
    cases e
    exact ⟨sound, nofun⟩
  | inspect _ _ ih => exact fun s => ih s.context s
  | @update change _ may _ ih =>
    have defines : ∀ definition, change ≠ .define definition :=
      fun definition same => other definition (same ▸ may)
    exact fun s sound start => ih _ (sound.update defines) trivial
  | readHost _ ih => exact fun s => ih s.host.host s
  | writeHost host _ ih =>
    exact fun s sound start => ih { s with host := { s.host with host := host } }
      (sound.congr rfl rfl) trivial
  | runBody may _ _ => exact may.elim
  | rereadArgs may _ _ => exact may.elim
  | rounds _ ih => exact ih parts.rounds
  | exhausted => exact fun _ _ _ _ _ e => nomatch e

/-- The frame of a call that was just entered, in which the body may be run unless that takes an open
chain. -/
structure Enters (call : ActiveCall) (s : State (Recorded σ)) : Prop where
  entered : ∃ around, s.context.scopes = ScopeStack.push around (.ofCall call false)
  flow : s.context.flow ≠ .leaving
  licensed : ¬ call.Continues ∨ s.context.scopes.parent.chainOpen = true →
    Licensed s.context.scopes s.host.moments

/-- In the frame of a call that was just entered the body may be run. -/
structure Enters.Ready (call : ActiveCall) (s : State (Recorded σ)) : Prop where
  entered : ∃ around, s.context.scopes = ScopeStack.push around (.ofCall call false)
  flow : s.context.flow ≠ .leaving
  licensed : Licensed s.context.scopes s.host.moments

/-- A call that has been entered is ready, unless it continues a chain that is not open. -/
lemma Enters.ready {call : ActiveCall} {s : State (Recorded σ)} (h : Enters call s)
    (may : ¬ call.Continues ∨ s.context.scopes.parent.chainOpen = true) : Enters.Ready call s :=
  ⟨h.entered, h.flow, h.licensed may⟩

/-- In the frame of a call that is ready, its body may start. -/
lemma Enters.Ready.between {call : ActiveCall} {origin : Statement Token → Prop}
    {s : State (Recorded σ)} (h : Enters.Ready call s) (sound : Sound body s) :
    Between body origin 0 0 s := by
  obtain ⟨around, entered⟩ := h.entered
  refine .enter sound h.licensed h.flow ?_
  rw [entered]
  rfl

/-- To open or close the chain leaves the call ready. -/
lemma Enters.Ready.setChain {call : ActiveCall} {s : State (Recorded σ)} (h : Enters.Ready call s)
    (isOpen : Bool) :
    Enters.Ready call { s with context := s.context.update (.setChain isOpen) } where
  entered := by
    obtain ⟨around, entered⟩ := h.entered
    refine ⟨around.modifyTop (·.setChain isOpen), ?_⟩
    show s.context.scopes.modifyParent (·.setChain isOpen) = _
    rw [entered]
    rfl
  flow := h.flow
  licensed := h.licensed.of_shape (s.context.shape_update (.setChain isOpen))

/-- What a control call has evaluated keeps things sound: the body is ready to be run in a new frame
and, unless execution is on its way out, again after it was run. -/
structure Parts.Sound (body : List (Statement Token)) (parts : Parts σ)
    (ready : State (Recorded σ) → Prop) : Prop where
  runs : ∀ s, ready s → ∀ result s', parts.body s = some (result, s') →
    Scriptlet.Sound body s' ∧ (result = .ok () → s'.context.flow = .next → ready s')
  arguments : ∀ s, ready s → ∀ result s', parts.arguments s = some (result, s') → ready s'
  sound : ∀ s, ready s → Scriptlet.Sound body s
  set : ∀ s name value, ready s → ready { s with context := s.context.update (.set name value) }
  enter : ∀ call s, Enters.Ready call s → Scriptlet.Sound body s → ready s

namespace Library

variable {parts : Parts σ} {ready : State (Recorded σ) → Prop} {call : Call}
  {pre post : State (Recorded σ) → Prop}

section

variable (sound : parts.Sound body ready)
include sound

/-- The body is run, and ready to be run again unless execution is on its way out. -/
lemma body_upholds :
    parts.Upholds body ready (fun s => s.context.flow = .next → ready s) Action.body := by
  intro s _ start result s' e
  change (attempt parts.body >>= fun result => ofAction _ _ _ (Action.recorded _)) s = _ at e
  rw [attempt_bind fun error => rfl] at e
  rcases bind_cases e with ⟨value, s₁, ran, ended⟩ | ⟨error, failed, rfl⟩
  · cases ended
    obtain ⟨after, again⟩ := sound.runs s start _ _ ran
    exact ⟨after, fun _ _ => again rfl⟩
  · obtain ⟨after, -⟩ := sound.runs s start _ _ failed
    exact ⟨after, nofun⟩

/-- To evaluate the arguments again leaves the call ready. -/
lemma arguments_uphold : parts.Upholds body ready ready Action.arguments := by
  intro s _ start result s' e
  change (attempt parts.arguments >>= fun result => ofAction _ _ _ (Action.recorded _)) s = _ at e
  rw [attempt_bind fun error => rfl] at e
  rcases bind_cases e with ⟨value, s₁, reread, ended⟩ | ⟨error, failed, rfl⟩
  · cases ended
    have after := sound.arguments s start _ _ reread
    exact ⟨sound.sound _ after, fun _ _ => after⟩
  · exact ⟨sound.sound _ (sound.arguments s start _ _ failed), nofun⟩

/-- The body is run for the only time. -/
lemma once_upholds : parts.Upholds body ready (fun _ => True) Action.body := by
  intro s before start result s' e
  obtain ⟨after, -⟩ := body_upholds sound s before start result s' e
  exact ⟨after, fun _ _ => trivial⟩

/-- A body that is repeated keeps the branches in order. -/
lemma repeatBody_upholds (times : Nat) :
    parts.Upholds body ready (fun _ => True) (repeatBody times) := by
  induction times with
  | zero => exact .pure () fun _ _ => trivial
  | succ times ih =>
    refine .bind (body_upholds sound) fun _ => .interrupted ?_ ?_
    · exact ih.mono fun s _ start => start.1 start.2
    · exact .pure () fun _ _ => trivial

/-- A body that is run for each item keeps the branches in order. -/
lemma forItems_upholds (name : String) (items : List String) :
    parts.Upholds body ready (fun _ => True) (forItems name items) := by
  induction items with
  | nil => exact .pure () fun _ _ => trivial
  | cons item items ih =>
    refine .bind (.change (fun s before _ => before.update nofun) fun s => sound.set s name item)
      fun _ => .bind (body_upholds sound) fun _ => .interrupted ?_ ?_
    · exact ih.mono fun s _ start => start.1 start.2
    · exact .pure () fun _ _ => trivial

/-- A body that is run for as long as its condition holds keeps the branches in order. -/
lemma whileRounds_upholds (rounds : Nat) (condition : String) :
    parts.Upholds body ready (fun _ => True) (whileRounds rounds condition) := by
  induction rounds generalizing condition with
  | zero =>
    rw [whileRounds]
    split
    · intro s _ _ result s' e
      cases e
    · exact .pure () fun _ _ => trivial
  | succ rounds ih =>
    rw [whileRounds]
    split
    · refine .bind (body_upholds sound) fun _ => .interrupted ?_ (.pure () fun _ _ => trivial)
      refine Parts.Upholds.mono (fun s _ start => start.1 start.2) ?_
      exact .bind (arguments_uphold sound) fun args => ih _
    · exact .pure () fun _ _ => trivial

/-- A call with a condition runs its body where it is ready, if it does at all. -/
lemma choose_upholds (condition : String) :
    parts.Upholds body (Enters.Ready call.active) (fun _ => True) (choose condition) := by
  refine .bind (.change (fun s before _ => before.update nofun) fun s start => start.setChain _)
    fun _ => ?_
  split
  · exact (once_upholds sound).mono fun s before start => sound.enter _ s start before
  · exact .pure () fun _ _ => trivial

/-- A counted loop keeps the branches in order. -/
lemma repeatTimes_upholds :
    parts.Upholds body (Enters.Ready call.active) (fun _ => True) (repeatTimes call) := by
  refine .ofExcept fun _ _ => .ofExcept fun times _ => .answers ?_ none
  exact (repeatBody_upholds sound _).mono fun s before start => sound.enter _ s start before

/-- A loop over items keeps the branches in order. -/
lemma forIn_upholds :
    parts.Upholds body (Enters.Ready call.active) (fun _ => True) (forIn call) := by
  refine .ofExcept fun _ _ => ?_
  dsimp only
  split
  · split
    · refine .bind ((forItems_upholds sound _ _).mono fun s before start => ?_) fun _ => ?_
      · exact sound.enter _ s start before
      · refine .answers (.change (fun s before _ => ?_) fun _ _ => trivial) none
        exact before.update nofun
    · exact .answers (.fail _) none
  · exact .pure _ fun _ _ => trivial

/-- An `if` keeps the branches in order. -/
lemma ifTrue_upholds :
    parts.Upholds body (Enters.Ready call.active) (fun _ => True) (ifTrue call) :=
  .ofExcept fun _ _ => .ofExcept fun condition _ =>
    .answers (choose_upholds sound condition) none

/-- An `elif` that finds the chain closed runs nothing. -/
lemma elseIf_upholds : parts.Upholds body (Enters call.active) (fun _ => True) (elseIf call) := by
  refine .ofExcept fun _ _ => .chainOpen fun isOpen => ?_
  cases isOpen with
  | true =>
    refine .mono (fun s _ start => start.1.ready (.inr start.2)) ?_
    exact .ofExcept fun condition _ => .answers (choose_upholds sound condition) none
  | false => exact .pure _ fun _ _ => trivial

/-- An `else` that finds the chain closed runs nothing. -/
lemma otherwise_upholds :
    parts.Upholds body (Enters call.active) (fun _ => True) (otherwise call) := by
  refine .ofExcept fun _ _ => .chainOpen fun isOpen => ?_
  cases isOpen with
  | true =>
    refine .mono (fun s _ start => start.1.ready (.inr start.2)) ?_
    refine .bind (.change (fun s before _ => before.update nofun) fun s start => start.setChain _)
      fun _ => .answers ?_ none
    exact (once_upholds sound).mono fun s before start => sound.enter _ s start before
  | false => exact .pure _ fun _ _ => trivial

/-- A loop on a condition keeps the branches in order. -/
lemma whileTrue_upholds :
    parts.Upholds body (Enters.Ready call.active) (fun _ => True) (whileTrue call) := by
  refine .ofExcept fun _ _ => .ofExcept fun condition _ => .answers ?_ none
  refine Parts.Upholds.mono (fun s before start => sound.enter _ s start before) ?_
  exact whileRounds_upholds sound parts.rounds condition

end

/-- The body of a definition that is made is that of the call that makes it. -/
lemma define_upholds (within : ∀ statement, call.body = some statement → Within body statement) :
    parts.Upholds body pre (fun _ => True) (define call) := by
  refine .ofExcept fun _ _ => ?_
  dsimp only
  split
  · exact .answers (.fail _) none
  · rename_i statement bodied
    refine .ofExcept fun definition made => .answers ?_ none
    refine .change (fun s before _ => before.define ?_) fun _ _ => trivial
    rw [body_of_definitionOf made]
    exact within _ bodied

/-- Every control call of the base library upholds that everything is sound. -/
lemma controls_uphold (call : Call) (sound : parts.Sound body ready)
    (within : ∀ statement, call.body = some statement → Within body statement) :
    parts.Upholds body (Enters call.active) (fun _ => True) (controls.toHandler.invoke call) := by
  refine Callbacks.invoke_of_each (fun fault => .fail fault) fun callback found => ?_
  have registered := Table.mem_of_get?_ofList found
  change (call.name, callback) ∈ _ at registered
  -- what neither an `elif` nor an `else` runs needs no open chain
  have ready : call.name ≠ "elif" → call.name ≠ "else" →
      ∀ s : State (Recorded σ), Sound body s → Enters call.active s → Enters.Ready call.active s :=
    fun no_elif no_else s _ start => start.ready (.inl fun continues =>
      continues.2.elim no_elif no_else)
  simp only [List.mem_cons, Prod.mk.injEq, List.not_mem_nil, or_false] at registered
  rcases registered with ⟨name, rfl⟩ | ⟨name, rfl⟩ | ⟨name, rfl⟩ | ⟨name, rfl⟩ | ⟨name, rfl⟩ |
    ⟨name, rfl⟩ | ⟨name, rfl⟩
  · exact (repeatTimes_upholds sound).mono (ready (name ▸ by decide) (name ▸ by decide))
  · exact (forIn_upholds sound).mono (ready (name ▸ by decide) (name ▸ by decide))
  · exact (ifTrue_upholds sound).mono (ready (name ▸ by decide) (name ▸ by decide))
  · exact elseIf_upholds sound
  · exact otherwise_upholds sound
  · exact (whileTrue_upholds sound).mono (ready (name ▸ by decide) (name ▸ by decide))
  · exact define_upholds within

end Library

end Scriptlet
