import Scriptlet.Proofs.Flow.Controls

/-!
# Calls on the way out

A call of a definition ends the way out that a `return` in it began, and takes the result that it
was handed (`call_definition`). Every other call ends in the mode in which its handler leaves it.
`run_carries` says so of everything that a run starts.
-/

namespace Scriptlet

open Evaluation

variable {σ γ : Type} [RandomSource γ] {random : Slot σ γ} {streams : Slot σ Streams}

/-- A step neither stops the run nor hands over a result. -/
lemma Moment.harmless_step (location : Location) (c : Context) :
    ¬ Moment.Stops ⟨.step location, c⟩ ∧
      ∀ number, Moment.resultFor? number ⟨.step location, c⟩ = none :=
  ⟨fun ⟨_, e, _⟩ => (nomatch e), fun _ => rfl⟩

/-- A call of a definition neither stops the run nor hands over a result. -/
lemma Moment.harmless_definition (call : ActiveCall) (c : Context) :
    ¬ Moment.Stops ⟨.definition call, c⟩ ∧
      ∀ number, Moment.resultFor? number ⟨.definition call, c⟩ = none :=
  ⟨fun ⟨_, e, _⟩ => (nomatch e), fun _ => rfl⟩

/-- No other handler stops the run or hands over a result. -/
lemma Moment.harmless_handler {call : ActiveCall} (goes_on : ¬ call.Stops) (keeps : ¬ call.Returns)
    (c : Context) :
    ¬ Moment.Stops ⟨.handler call, c⟩ ∧
      ∀ number, Moment.resultFor? number ⟨.handler call, c⟩ = none := by
  refine ⟨?_, fun number => if_neg fun handed => keeps handed.1⟩
  rintro ⟨_, e, stops⟩
  cases e
  exact goes_on stops

/-- A `return` and a `stop` that a handler serves are those of the base library. -/
lemma Standard.eq_commands {handler : Handler σ} {name : String}
    (standard : Standard random streams .command handler) (answers : handler.answersTo name)
    (h : name = "return" ∨ name = "stop") : handler = Library.commands.toHandler := by
  cases standard with
  | commands => rfl
  | stdio => rcases h with rfl | rfl <;> cases answers

namespace Interpreter

variable {it : Interpreter σ} {run : Node Token → Evaluation (Recorded σ) Unit}
  {expand : Expand (Recorded σ)} {rounds : Nat} {site : CallSite} {ceiling : Nat}

/-- A `return` hands its result to the innermost call of a definition, or fails without one. -/
lemma handle_return_eq (args : List String) (location : Location) (s : State (Recorded σ)) :
    it.recorded.handle run expand rounds site ⟨"return", .command, args, location⟩
        (Library.commands.toHandler : Handler σ).recorded s =
      match s.context.scopes.definitionAbove? with
      | some _ => some (.ok none, { it.note (.handler ⟨"return", .command, args, location⟩) s with
          context := s.context.update (.leave (Text.unwords args)) })
      | none => some (.error (.ofFault .returnOutsideDefinition),
          it.note (.handler ⟨"return", .command, args, location⟩) s) := by
  show ofAction _ _ _ (Library.leave _).recorded (it.note _ s) = _
  simp only [Library.leave, Bind.bind, Action.andThen, Action.context, Action.recorded, ofAction,
    andThen, context]
  show ofAction _ _ _ (Action.recorded
    (match s.context.scopes.definitionAbove? with | some _ => _ | none => _)) _ = _
  cases s.context.scopes.definitionAbove? <;> rfl

/-- A `return` sends execution to the end of the innermost call of a definition, if there is one. -/
lemma handle_return {call : ActiveCall} (returns : call.Returns) :
    Carries ceiling .running (fun _ => True)
      (it.recorded.handle run expand rounds site call
        (Library.commands.toHandler : Handler σ).recorded) := by
  obtain ⟨name, kind, args, location⟩ := call
  obtain ⟨rfl, rfl⟩ := returns
  let call : ActiveCall := ⟨"return", .command, args, location⟩
  intro s start result s' e
  have goes_on : ¬ Moment.Stops ⟨.handler call, s.context⟩ := by
    rintro ⟨_, same, -, stops⟩
    cases same
    exact absurd (show "return" = "stop" from stops) (by decide)
  rw [handle_return_eq, ScopeStack.definitionAbove?_eq] at e
  by_cases inside : 0 < s.context.scopes.current
  · rw [if_pos inside] at e
    cases e
    let handed := s.context.scopes.definitionAbove?_eq
    rw [if_pos inside] at handed
    have leaves : s.context.update (.leave (Text.unwords args)) =
        { s.context with
          scopes := s.context.scopes.modifyAbove
            (fun f => { f with result := some (Text.unwords args) })
            (s.context.scopes.depth - s.context.scopes.current)
          flow := .leaving } := by
      rw [Context.update, ScopeStack.setResult?, handed]
      rfl
    refine ⟨.leaving (Text.unwords args), trivial, ?_, ?_, ⟨[⟨.handler call, s.context⟩], rfl, ?_⟩, ?_,
      trivial⟩
    · exact s.context.shape_update _
    · exact congrArg Context.flow leaves
    · refine .single (List.prefix_refl _) (.left start.flow ?_)
      exact if_pos ⟨⟨rfl, rfl⟩, inside, rfl⟩
    · show (s.context.update _).scopes.results = _
      rw [leaves]
      exact ScopeStack.results_setResult (by rw [ScopeStack.setResult?, handed]; rfl)
  · rw [if_neg inside] at e
    cases e
    refine ⟨.running, trivial, rfl, start.flow, ⟨[⟨.handler call, s.context⟩], rfl, ?_⟩,
      start.results, .inl rfl⟩
    refine .single (List.prefix_refl _) (.onward start.flow goes_on fun number _ => ?_)
    -- the result would be for the global frame, which takes none
    refine if_neg fun handed => inside ?_
    exact handed.2.2 ▸ handed.2.1

/-- A `stop` sends execution to the end of the run. -/
lemma handle_stop {call : ActiveCall} (stops : call.Stops) :
    Carries ceiling .running (· = .halting)
      (it.recorded.handle run expand rounds site call
        (Library.commands.toHandler : Handler σ).recorded) := by
  obtain ⟨name, kind, args, location⟩ := call
  obtain ⟨rfl, rfl⟩ := stops
  intro s start result s' e
  cases e
  refine ⟨.halting, rfl, rfl, rfl, ⟨[_], rfl, ?_⟩, start.results, trivial⟩
  refine .single (List.prefix_refl _) (.halted start.flow ⟨_, rfl, rfl, rfl⟩ fun call mem => ?_)
  rw [List.drop_length] at mem
  cases mem

/-- A call of the base library ends in any mode if it is a command or a control call, while an
expansion sends execution nowhere. -/
lemma handle_carries {call : ActiveCall} {handler : Handler σ}
    (standard : Standard random streams call.kind handler) (answers : handler.answersTo call.name)
    (orderly : call.kind = .control →
      Parts.Orderly ceiling
        ⟨runBody run site call.name, Word.arguments expand site.args, rounds⟩) :
    Carries ceiling .running (fun mode => call.kind = .expansion → mode = .running)
      (it.recorded.handle run expand rounds site call handler.recorded) := by
  by_cases returns : call.Returns
  · have command := returns.1 ▸ standard
    obtain rfl := command.eq_commands answers (.inl returns.2)
    exact (handle_return returns).mono fun _ _ expansion => nomatch returns.1.symm.trans expansion
  by_cases stops : call.Stops
  · have command := stops.1 ▸ standard
    obtain rfl := command.eq_commands answers (.inr stops.2)
    exact (handle_stop stops).mono fun _ _ expansion => nomatch stops.1.symm.trans expansion
  have noted : Carries ceiling .running (· = .running)
      (Evaluation.notify it.recorded.observe (.handler call)) :=
    .notify it (.inl rfl) rfl (Moment.harmless_handler stops returns) nofun
  let parts : Parts σ := ⟨runBody run site call.name, Word.arguments expand site.args, rounds⟩
  by_cases control : call.kind = .control
  · rw [control] at standard
    cases standard
    refine noted.bind (fun _ running _ _ => running) fun _ mode running => ?_
    subst running
    have heeds : parts.Heeds ceiling .running (fun _ => True)
        (Library.controls.toHandler.invoke ⟨call, site.node, site.body⟩) :=
      Library.controls_heed (orderly control) _
    refine Carries.mono (fun mode _ expansion => ?_) heeds
    exact nomatch control.symm.trans expansion
  · refine noted.bind (fun _ running _ _ => running) fun _ mode running => ?_
    subst running
    have confined := standard.confined ⟨call, site.node, site.body⟩
    rw [Action.ConfinedAs, eq_false control] at confined
    have heeds : parts.Heeds ceiling .running (· = .running)
        (handler.invoke ⟨call, site.node, site.body⟩) := by
      refine .of_confined (fun change made ends => ?_) confined
      -- only `return` and `stop` make such a change
      cases change with
      | leave result =>
        obtain ⟨kind, name⟩ := Prod.mk.inj (List.mem_singleton.1 made)
        exact returns ⟨kind, name⟩
      | stop =>
        obtain ⟨kind, name⟩ := Prod.mk.inj (List.mem_singleton.1 made)
        exact stops ⟨kind, name⟩
      | _ => exact ends
    exact Carries.mono (fun mode running _ => running) heeds

/-- At the end of a definition the way out of it ends. -/
lemma flow_arrive {c : Context} {mode : Mode} (h : c.flow = mode.flow) (call : ActiveCall) :
    (arrive c).flow = (mode.outside call true).flow := by
  rw [Mode.flow_outside, ← h, arrive]
  by_cases left : c.flow = .leaving <;> simp [left]

section

variable (runs : ∀ statement (mode : Mode), mode.Reading →
  Carries ceiling mode (fun _ => True) (run (.statement statement)))
include runs

/-- A call of a definition takes the result that it was handed in its body, and goes on behind it,
but for a `stop`. -/
lemma call_definition {definition : Definition} {call : ActiveCall} {s s' : State (Recorded σ)}
    {result : Except RuntimeError (Option String)} (start : s.context.flow = .next)
    (h : inFrame (.ofCall call true)
      (it.recorded.dispatch run expand rounds site (some definition) call) s = some (result, s')) :
    ∃ (last : Mode) (news : List Moment), s'.host.moments = s.host.moments ++ news ∧
      news.filterMap (Moment.resultFor? (s.context.scopes.depth + 1)) = last.result?.toList ∧
      Goes ceiling s .running result s' (last.outside call true) ∧
      ∀ answer, result = .ok answer → answer = last.result? := by
  obtain ⟨inner, s₂, dispatched, rfl, outcome⟩ := inFrame_cases h
  let entered := withScopes (·.push (.ofCall call true)) s
  let noted := it.note (.definition call) entered
  let bound := withScopes (bindParams definition call.args) noted
  change runDefinition run definition call.args noted = some (inner, s₂) at dispatched
  -- to tell of the call and to bind its parameters sends execution nowhere
  have harmless := Moment.harmless_definition call entered.context
  have notes : Goes ceiling entered .running (.ok () : Except RuntimeError Unit) noted .running := by
    refine ⟨rfl, start, ⟨[⟨.definition call, entered.context⟩], rfl, ?_⟩, rfl, trivial⟩
    exact .single (List.prefix_refl _) (.onward start harmless.1 fun number _ => harmless.2 number)
  have binds : Goes ceiling noted .running (.ok () : Except RuntimeError Unit) bound .running :=
    ⟨shape_bindParams _ _ _, start, ⟨[], (List.append_nil _).symm, .nil _⟩,
      ScopeStack.results_bindParams _ _ _, trivial⟩
  rcases runDefinition_cases dispatched with ⟨fault, rfl, rfl⟩ | ⟨ended, s₁, ran, outcome'⟩
  · -- the arguments do not fit, which is a fault of the call
    obtain ⟨⟨news, moments, handing⟩, -⟩ := notes.inside
    rcases outcome with ⟨_, failed, -⟩ | ⟨error, -, rfl⟩
    · cases failed
    · exact ⟨.running, news, moments, handing, notes.leave rfl rfl rfl start (.inl rfl), nofun⟩
  · obtain ⟨last, -, body⟩ := runs definition.body .running (.inl rfl) bound binds.at_end _ _ ran
    have goes := (notes.trans binds).trans body
    obtain ⟨⟨news, moments, handing⟩, handed⟩ := goes.inside
    have arrives := flow_arrive goes.flow call
    rcases outcome' with ⟨error, rfl, rfl, rfl⟩ | ⟨rfl, rfl, rfl⟩
    · rcases outcome with ⟨_, failed, -⟩ | ⟨_, failed, rfl⟩
      · cases failed
      · cases failed
        have flow : s₂.context.flow = (last.outside call true).flow := by
          rw [goes.flow]
          rcases goes.permits.reading with rfl | rfl <;> rfl
        refine ⟨last, news, moments, handing, goes.leave rfl rfl rfl flow ?_, nofun⟩
        exact goes.permits.outside call true _ _
    · rcases outcome with ⟨answer, ok, rfl⟩ | ⟨_, failed, -⟩
      · cases ok
        refine ⟨last, news, moments, handing, goes.leave ?_ rfl ?_ arrives trivial, fun _ same => ?_⟩
        · refine (ScopeStack.shape_modifyTop _ ?_).trans (congrArg _ (scopes_arrive _))
          exact fun frame => rfl
        · exact congrArg (fun t => t.results.tail) (scopes_arrive s₁.context)
        · cases same
          exact handed
      · cases failed

variable (expands : ∀ origin name args (mode : Mode), mode.Reading →
  Carries ceiling mode Mode.Reading (expand origin name args))

omit runs in
include expands in
/-- While arguments are read, the mode stays a reading one. -/
lemma arguments_carries (words : List (Word Token)) {mode : Mode} (reading : mode.Reading) :
    Carries ceiling mode Mode.Reading (Word.arguments expand words) := by
  have alike : ∀ origin name args,
      Reads ceiling (expand origin name args) (expand origin name args) := expands
  exact Word.arguments_lockstep Reads.lockstep alike words mode reading

include expands in
/-- Only control calls need a body, and have one. -/
lemma dispatch_carries (uses : it.Uses (Standard random streams))
    (bodied : site.kind = .control → site.body.isSome) {call : ActiveCall}
    (kind : call.kind = site.kind) :
    Carries ceiling .running (fun mode => call.kind = .expansion → mode = .running)
      (it.recorded.dispatch run expand rounds site none call) := by
  unfold dispatch
  dsimp only
  rw [chain_recorded, Chain.handlerFor?_recorded]
  cases found : Chain.handlerFor? (it.registry.chain call.kind) call.name with
  | none => exact Carries.raise _ fun _ => rfl
  | some handler =>
    obtain ⟨entry, mem, rfl⟩ := Chain.exists_of_firstFor found
    refine handle_carries (uses call.kind entry mem) (Chain.answersTo_of_firstFor found) ?_
    intro control
    obtain ⟨body, bodied⟩ := Option.isSome_iff_exists.1 (bodied (kind ▸ control))
    refine ⟨fun mode reading => ?_, fun mode => arguments_carries expands site.args⟩
    show Carries _ _ _ (runBody run site call.name)
    rw [runBody, bodied]
    exact runs body mode reading

include expands in
/-- Nothing is served after a `stop`, and an expansion ends where words are evaluated. -/
lemma serve_carries (uses : it.Uses (Standard random streams))
    (bodied : site.kind = .control → site.body.isSome) (name : String) (args : List String)
    {mode : Mode} (reading : mode.Reading) :
    Carries ceiling mode (fun last => site.kind = .expansion → last.Reading)
      (it.recorded.serve run expand rounds site name args) := by
  unfold serve
  split
  · exact .failAt _ reading (fun _ => trivial) fun _ => reading
  refine .context fun c flow => ?_
  -- words are evaluated on the way onward, or after a `stop`, where nothing is called
  rcases reading with rfl | rfl
  · have goes_on : c.isStopped = false := by
      rw [Context.isStopped, flow]
      rfl
    rw [if_neg (by simp [goes_on])]
    split
    · exact .failAt _ (.inl rfl) (by simp) fun _ => .inl rfl
    · let call : ActiveCall := ⟨name, site.kind, args, site.location⟩
      suffices served : Carries ceiling .running (fun last => site.kind = .expansion → last.Reading)
          (inFrame (.ofCall call (c.definition? site.kind name).isSome)
            (it.recorded.dispatch run expand rounds site (c.definition? site.kind name) call)) from
        served.bind (fun _ ended _ => ended) fun _ _ ended => .pure _ ended
      cases c.definition? site.kind name with
      | none =>
        have dispatched : Carries ceiling .running
            (fun mode => call.kind = .expansion → mode = .running)
            (it.recorded.dispatch run expand rounds site none call) :=
          dispatch_carries runs expands uses bodied rfl
        refine (dispatched.inFrame call).mono ?_
        rintro _ ⟨inner, ended, rfl⟩ expansion
        rw [ended expansion]
        exact .inl rfl
      | some definition =>
        intro s start result s' e
        obtain ⟨last, _, -, -, goes, -⟩ := call_definition runs start.flow e
        exact ⟨_, fun expansion => last.reading_outside (show call.kind = _ from expansion), goes⟩
  · have stopped : c.isStopped = true := by
      rw [Context.isStopped, flow]
      rfl
    rw [if_pos stopped]
    exact .pure "" fun _ => .inr rfl

include expands in
/-- A call carries on in the mode in which its arguments are read; an expansion ends in such a mode.
-/
lemma call_carries (uses : it.Uses (Standard random streams))
    (bodied : site.kind = .control → site.body.isSome) {mode : Mode} (reading : mode.Reading) :
    Carries ceiling mode (fun last => site.kind = .expansion → last.Reading)
      (it.recorded.call run expand rounds site) := by
  have alike : ∀ origin name args,
      Reads ceiling (expand origin name args) (expand origin name args) := expands
  have names := Word.slots_lockstep Reads.lockstep alike site.name mode reading
  refine names.bind (fun _ reached _ _ => reached) fun named _ reached => ?_
  have arguments := arguments_carries expands site.args reached
  refine arguments.bind (fun _ reached _ _ => reached) fun given _ reached => ?_
  exact serve_carries runs expands uses bodied _ _ reached

/-- No statement of a sequence is started on the way out. -/
lemma sequence_carries (statements : List (Statement Token)) (mode : Mode) :
    Carries ceiling mode (fun _ => True) (sequence (fun s => run (.statement s)) statements) := by
  induction statements generalizing mode with
  | nil => exact .pure () trivial
  | cons statement rest ih =>
    refine .context fun c flow => ?_
    by_cases running : mode = .running
    · subst running
      have goes_on : c.isInterrupted = false := by
        rw [Context.isInterrupted, flow]
        rfl
      rw [if_neg (by simp [goes_on])]
      exact (runs statement .running (.inl rfl)).bind (fun _ _ _ => trivial) fun _ mode _ => ih mode
    · have gives_up : c.isInterrupted = true := by
        rw [Context.isInterrupted, flow]
        cases mode <;> first | rfl | exact absurd rfl running
      rw [if_pos gives_up]
      exact .pure () trivial

include expands in
/-- After a `stop` only statements are performed. -/
lemma perform_carries (uses : it.Uses (Standard random streams)) (node : Node Token) {mode : Mode}
    (reading : mode.Reading) (late : mode = .fading → ∃ statement, node = .statement statement) :
    Carries ceiling mode (fun _ => True) (it.recorded.perform run expand rounds node) := by
  have calls : ∀ {site : CallSite}, (site.kind = .control → site.body.isSome) →
      Carries ceiling mode (fun _ => True)
        (it.recorded.call run expand rounds site >>= fun _ => pure ()) := fun bodied =>
    (call_carries runs expands uses bodied reading).bind (fun _ _ _ => trivial) fun _ _ _ =>
      .pure () trivial
  have misplaced : ∀ location fault, (mode = .fading → False) →
      Carries ceiling mode (fun _ => True)
        (failAt location fault : Evaluation (Recorded σ) Unit) := fun location fault early =>
    .failAt location reading (fun fading => (early fading).elim) trivial
  cases node with
  | script body => exact sequence_carries runs body mode
  | statement statement =>
    cases statement with
    | block origin body => exact sequence_carries runs body mode
    | command name args => exact calls nofun
    | control origin name args body => exact calls fun _ => rfl
  | arguments args => exact misplaced _ _ fun fading => nomatch late fading
  | word word => exact misplaced _ _ fun fading => nomatch late fading

end

/-- A step is taken in the mode that there is, after a `stop` too. -/
lemma step_carries (location : Location) {mode : Mode} (reading : mode.Reading) :
    Carries it.limits.maxSteps mode (· = mode) (it.recorded.step location) := by
  have counts : Carries (σ := σ) it.limits.maxSteps mode (· = mode)
      (Evaluation.modify fun c => { c with steps := c.steps + 1 }) :=
    .modify rfl (fun _ => rfl) (fun _ => rfl) fun _ => rfl
  have tells : Carries it.limits.maxSteps mode (· = mode)
      (Evaluation.notify it.recorded.observe (.step location)) :=
    .notify it reading rfl (Moment.harmless_step location) fun _ => ⟨location, rfl⟩
  refine counts.bind (fun _ same _ => same) fun _ _ same => ?_
  rw [same]
  refine tells.bind (fun _ same _ => same) fun _ _ same => ?_
  rw [same]
  refine .context fun c _ => ?_
  split
  · rename_i beyond
    simp only [Bool.and_eq_true, decide_eq_true_eq] at beyond
    exact .failAt location reading (fun _ => ⟨rfl, beyond.1⟩) rfl
  · exact .pure () rfl

/-- Whatever a run starts goes on from a mode in which words are evaluated, and an expansion ends in
one. -/
lemma run_carries (uses : it.Uses (Standard random streams)) (fuel : Nat) :
    (∀ node (mode : Mode), mode.Reading →
        (mode = .fading → ∃ statement, node = .statement statement) →
        Carries it.limits.maxSteps mode (fun _ => True) (it.recorded.runNode fuel node)) ∧
      ∀ origin name args (mode : Mode), mode.Reading →
        Carries it.limits.maxSteps mode Mode.Reading
          (it.recorded.expand fuel origin name args) := by
  induction fuel with
  | zero =>
    -- without fuel nothing ends
    refine ⟨?_, ?_⟩
    · intro node mode _ _ s _ result s' e
      cases e
    · intro origin name args mode _ s _ result s' e
      cases e
  | succ fuel ih =>
    obtain ⟨nodes, expands⟩ := ih
    have runs : ∀ statement (mode : Mode), mode.Reading →
        Carries it.limits.maxSteps mode (fun _ => True)
          (it.recorded.runNode fuel (.statement statement)) :=
      fun statement mode reading => nodes _ mode reading fun _ => ⟨statement, rfl⟩
    refine ⟨fun node mode reading late => ?_, fun origin name args mode reading => ?_⟩
    · rw [runNode]
      refine (step_carries _ reading).bind (fun _ _ _ => trivial) fun _ _ same => ?_
      rw [same]
      have counts : Carries (σ := σ) it.limits.maxSteps mode (· = mode) countStatement := by
        refine .modify rfl (fun c => ?_) (fun _ => rfl) fun _ => rfl
        refine ScopeStack.shape_modifyTop _ ?_
        exact fun frame => rfl
      refine counts.bind (fun _ _ _ => trivial) fun _ _ same => ?_
      rw [same]
      exact perform_carries runs expands uses node reading late
    · rw [Interpreter.expand]
      refine (step_carries _ reading).bind (fun _ _ reached => reached) fun _ _ same => ?_
      rw [same]
      refine (call_carries runs expands uses (by simp) reading).mono ?_
      exact fun _ ended => ended rfl

/-- A run begins in the global frame, with nothing on its way out. -/
lemma runPiece_trail (uses : it.Uses (Standard random streams)) {node : Node Token}
    {s s' : State σ} {result : Except RuntimeError Unit}
    (ran : it.runPiece node s = some (result, s')) :
    ∃ last, Trail [] 0 .running (it.moments node s) last ∧ s'.context.flow = last.flow ∧
      last.Permits it.limits.maxSteps result := by
  obtain ⟨s₁, interpreted, e⟩ := interpret_of_runPiece (exists_recorded ran)
  have carries := (run_carries uses it.fuel).1 node .running (.inl rfl) nofun
  obtain ⟨last, -, goes⟩ := carries _ (.running rfl) _ _ interpreted
  obtain ⟨news, moments, trail⟩ := goes.happened
  have moments_eq := congrArg (fun t : State (Recorded σ) => t.host.moments) e
  have flow_eq := congrArg (fun t : State (Recorded σ) => t.context.flow) e
  change it.moments node s = s₁.host.moments at moments_eq
  change s'.context.flow = s₁.context.flow at flow_eq
  have silent : s₁.host.moments = news := moments
  have current : s.context.scopes.unwind.current = 0 :=
    Nat.le_zero.1 (ScopeStack.current_le_depth _)
  change Trail s.context.scopes.unwind.backtrace s.context.scopes.unwind.current _ _ _ at trail
  rw [current, ← silent, ← moments_eq] at trail
  exact ⟨last, trail, flow_eq.trans goes.flow, goes.permits⟩

end Interpreter

end Scriptlet
