import Scriptlet.Proofs.Errors.Places

/-!
# Errors in sessions

A session runs texts one after the other on one context. An error of a run is placed in the text of
the run, unless it was raised within a call of a definition whose body stands in a text before: then
it is placed in that text (`errors_stand_in_their_texts`).
-/

namespace Scriptlet

open Evaluation

variable {σ γ : Type} [RandomSource γ] {random : Slot σ γ} {streams : Slot σ Streams}

namespace Interpreter

/-- The call stands in the text. -/
structure Stands (it : Interpreter σ) (here : String) (site : CallSite) : Prop where
  start : it.TokenStart here site.location
  name : site.name.Over (it.Writes here)
  args : ∀ arg ∈ site.args, arg.Over (it.Writes here)
  body : ∀ statement ∈ site.body, statement.Over (it.Writes here)

section

variable {it : Interpreter σ} {texts : List String} {text here other : String} {fuel : Nat}
  {site : CallSite} {call : ActiveCall} {s : State (Recorded σ)}

/-- A call that is told of is placed in the text in which it stands, and what runs in it sits in the
text that is its home. -/
lemma sits_note (sits : Sits it texts text here s) (start : it.TokenStart here call.location)
    {event : Event} {owns : Bool} (listed : other ∈ texts)
    (home : ∀ moments, it.Home texts text moments s.context.scopes.backtrace here →
      ⟨event, s.context.withScopes (·.push (.ofCall call owns))⟩ ∈ moments →
      it.Home texts text moments (s.context.scopes.backtrace ++ [call]) other) :
    Sits it texts text other (it.note event (withScopes (·.push (.ofCall call owns)) s)) := by
  have calls := ScopeStack.backtrace_push s.context.scopes (.ofCall call owns)
  have more : s.host.moments <+: s.host.moments ++
      [⟨event, s.context.withScopes (·.push (.ofCall call owns))⟩] := List.prefix_append _ _
  refine ⟨listed, sits.known, ?_, ?_⟩
  · refine calls ▸ home _ (sits.home.mono more) ?_
    exact List.mem_append_right _ (List.mem_singleton_self _)
  · exact calls ▸ (sits.placed.mono more).push (sits.home.mono more) start

/-- To be told of something leads on. -/
lemma leads_note (event : Event) (s : State (Recorded σ)) : Leads it texts s (it.note event s) :=
  ⟨rfl, List.prefix_append _ _, id⟩

/-- A definition points to where its body fails. -/
lemma runDefinition_points {run : Node Token → Evaluation (Recorded σ) Unit}
    {definition : Definition} (runs : Points it texts text here (run (.statement definition.body)))
    (args : List String) : Points it texts text here (runDefinition run definition args) := by
  have passage {change : Context → Context} (h : Passage change) :
      Points it texts text here (Evaluation.modify change : Evaluation (Recorded σ) Unit) := by
    refine .modify h.shape fun c known => ?_
    rw [Known, h.definitions]
    exact known
  unfold runDefinition
  split
  · exact fun _ _ => .fail _
  · refine (passage (.bindParams definition args)).bind fun _ => runs.bind fun _ => ?_
    refine (passage .arrive).bind fun _ => .context fun c => ?_
    exact (passage .takeResult).bind fun _ => .pure _

section

variable
  (runs : ∀ here (statement : Statement Token), statement.Over (it.Writes here) →
    Points it texts text here (it.recorded.runNode fuel (.statement statement)))
include runs

/-- A call that a definition serves points into a text in which the body of the definition
stands. -/
lemma definition_points (sits : Sits it texts text here s)
    (start : it.TokenStart here call.location) {definition : Definition}
    (defined : s.context.definition? call.kind call.name = some definition) :
    PointsFrom it texts text (withScopes (·.push (.ofCall call true)) s)
      (it.recorded.dispatch (it.recorded.runNode fuel) (it.recorded.expand fuel) fuel site
        (some definition) call) := by
  have known : ∃ other ∈ texts, definition.body.Over (it.Writes other) := by
    cases kind : call.kind with
    | control =>
      rw [kind] at defined
      cases defined
    | command | expansion =>
      rw [kind] at defined
      exact sits.known _ _ defined
  obtain ⟨other, listed, written⟩ := known
  have calls := ScopeStack.backtrace_push s.context.scopes (.ofCall call true)
  have inside : Sits it texts text other
      (it.note (.definition call) (withScopes (·.push (.ofCall call true)) s)) :=
    sits_note sits start listed fun moments home mem =>
      .definition home mem rfl calls defined listed written
  intro result s' ran
  obtain ⟨onwards, pointed⟩ := runDefinition_points (runs _ _ written) call.args _ inside _ _ ran
  exact ⟨(leads_note _ _).trans onwards, pointed⟩

/-- Statements in order point to where one of them fails. -/
lemma sequence_points {statements : List (Statement Token)}
    (written : ∀ s ∈ statements, s.Over (it.Writes here)) :
    Points it texts text here
      (sequence (fun s => it.recorded.runNode fuel (.statement s)) statements) := by
  induction statements with
  | nil => exact .pure ()
  | cons statement rest ih =>
    obtain ⟨first, others⟩ := List.forall_mem_cons.1 written
    refine .context fun c => ?_
    split
    · exact .pure ()
    · exact (runs _ _ first).bind fun _ => ih others

variable
  (expands : ∀ here origin name args, (Word.substitution origin name args).Over (it.Writes here) →
    Points it texts text here (it.recorded.expand fuel origin name args))
include expands

/-- A call that a handler serves points into the text in which the call stands. -/
lemma handler_points (uses : it.Uses (Standard random streams)) (stands : it.Stands here site)
    (sits : Sits it texts text here s) (start : it.TokenStart here call.location) :
    PointsFrom it texts text (withScopes (·.push (.ofCall call false)) s)
      (it.recorded.dispatch (it.recorded.runNode fuel) (it.recorded.expand fuel) fuel site none
        call) := by
  intro result s' ran
  rcases dispatch_recorded_cases ran with ⟨fault, rfl, rfl⟩ | ⟨handler, found, handled⟩
  · exact PointsFrom.fail fault _ _ rfl
  · obtain ⟨entry, mem, rfl⟩ := Chain.exists_of_firstFor found
    have takes := (uses call.kind entry mem).takes ⟨call, site.node, site.body⟩
    have calls := ScopeStack.backtrace_push s.context.scopes (.ofCall call false)
    have inside : Sits it texts text here
        (it.note (.handler call) (withScopes (·.push (.ofCall call false)) s)) :=
      sits_note sits start sits.listed fun moments home mem => .handler home mem rfl calls
    have bodies : Points it texts text here
        (runBody (it.recorded.runNode fuel) site call.name) := by
      rw [runBody]
      cases body : site.body with
      | none => exact fun _ _ => .fail _
      | some statement => exact runs _ _ (stands.body _ body)
    have rereads : Points it texts text here
        (Word.arguments (it.recorded.expand fuel) site.args) :=
      arguments_points (expands here) stands.args
    obtain ⟨onwards, pointed⟩ :=
      ofAction_points bodies rereads stands.body (takes 0) _ inside _ _ handled
    exact ⟨(leads_note _ _).trans onwards, pointed⟩

/-- A call points to where it fails. -/
lemma serve_points (uses : it.Uses (Standard random streams)) (stands : it.Stands here site)
    (name : String) (args : List String) :
    Points it texts text here
      (it.recorded.serve (it.recorded.runNode fuel) (it.recorded.expand fuel) fuel site name
        args) := by
  rw [serve]
  split
  · exact .failAt stands.start _
  intro s sits
  show PointsFrom it texts text s (if s.context.isStopped then _ else _)
  split
  · exact .pure ""
  split
  · exact Points.failAt stands.start _ s sits
  · refine .bind (.inFrame sits stands.start ?_) fun answer s₁ _ _ => .pure _
    cases defined : s.context.definition? site.kind name with
    | some definition => exact definition_points runs sits stands.start defined
    | none => exact handler_points runs expands uses stands sits stands.start

/-- A call points at the text in which it is written. -/
lemma call_points (uses : it.Uses (Standard random streams)) (stands : it.Stands here site) :
    Points it texts text here
      (it.recorded.call (it.recorded.runNode fuel) (it.recorded.expand fuel) fuel site) :=
  (slots_points (expands here) stands.name).bind fun _ =>
    (arguments_points (expands here) stands.args).bind fun _ =>
      serve_points runs expands uses stands _ _

/-- What a statement does points at the text in which it is written, or in which its definitions
are. -/
lemma perform_points (uses : it.Uses (Standard random streams)) {statement : Statement Token}
    (written : statement.Over (it.Writes here)) :
    Points it texts text here
      (it.recorded.perform (it.recorded.runNode fuel) (it.recorded.expand fuel) fuel
        (.statement statement)) := by
  have start : it.TokenStart here (Node.statement statement).start := written.start
  cases written with
  | block token body => exact sequence_points runs body
  | command name args =>
    refine (call_points runs expands uses ⟨start, name, args, fun _ mem => ?_⟩).bind
      fun _ => .pure ()
    exact absurd mem (Option.not_mem_none _)
  | control token name args body =>
    refine (call_points runs expands uses ⟨start, name, args, fun _ mem => ?_⟩).bind
      fun _ => .pure ()
    exact Option.mem_some.1 mem ▸ body

end

/-- A step that is one too many is at what was to be run. -/
lemma step_points {location : Location} (start : it.TokenStart here location) :
    Points it texts text here (it.recorded.step location) := by
  intro s sits result s' ran
  have leads : Leads it texts s (it.takeStep location s) := ⟨rfl, List.prefix_append _ _, id⟩
  rw [step_recorded] at ran
  split at ran
  · exact Points.after leads (.failAt start _) sits ran
  · cases ran
    exact ⟨leads, fun _ same => by cases same⟩

/-- Every statement and every expansion that is run in its text points to where it fails. -/
lemma run_points (uses : it.Uses (Standard random streams)) (texts : List String) (text : String)
    (fuel : Nat) :
    (∀ here (statement : Statement Token), statement.Over (it.Writes here) →
      Points it texts text here (it.recorded.runNode fuel (.statement statement))) ∧
      ∀ here origin name args, (Word.substitution origin name args).Over (it.Writes here) →
        Points it texts text here (it.recorded.expand fuel origin name args) := by
  induction fuel with
  | zero =>
    refine ⟨fun here statement _ s _ result s' ran => ?_,
      fun here origin name args _ s _ result s' ran => ?_⟩
    · cases ran
    · cases ran
  | succ fuel ih =>
    obtain ⟨runs, expands⟩ := ih
    refine ⟨fun here statement written => ?_, fun here origin name args written => ?_⟩
    · rw [runNode]
      refine (step_points written.start).bind fun _ => .bind (.modify (fun c => ?_) fun _ => id)
        fun _ => perform_points runs expands uses written
      exact ScopeStack.shape_modifyTop _ fun _ => rfl
    · rw [Interpreter.expand]
      have start : it.TokenStart here origin.start := written.start
      cases written with
      | substitution token name args =>
        refine (step_points start).bind fun _ =>
          call_points runs expands uses ⟨start, name, args, fun _ mem => ?_⟩
        exact absurd mem (Option.not_mem_none _)

/-- A script that is run from the start of a run points to where it fails. -/
lemma script_points (uses : it.Uses (Standard random streams)) {body : List (Statement Token)}
    (written : ∀ s ∈ body, s.Over (it.Writes here)) (sits : Sits it texts text here s)
    (fresh : s.context.steps = 0) :
    PointsFrom it texts text s (it.recorded.runNode fuel (.script body)) := by
  cases fuel with
  | zero =>
    intro result s' ran
    cases ran
  | succ fuel =>
    rw [runNode]
    refine .bind (fun result s' ran => ?_) fun _ s₁ _ leads => ?_
    · -- the first step is never one too many
      have within : ¬(0 < it.limits.maxSteps ∧ it.limits.maxSteps < s.context.steps + 1) := by
        omega
      rw [step_recorded, if_neg within] at ran
      cases ran
      exact ⟨⟨rfl, List.prefix_append _ _, id⟩, fun _ same => by cases same⟩
    · have counts : Points it texts text here (countStatement : Evaluation (Recorded σ) Unit) :=
        .modify (fun c => ScopeStack.shape_modifyTop _ fun _ => rfl) fun _ => id
      have sequence := sequence_points (run_points uses texts text fuel).1 written
      exact counts.bind (fun _ => sequence) s₁ (sits.leads leads)

/-- At the start of a run of a text, its statements may run. -/
lemma sits_beginRun {s : State σ} (known : Known it texts s.context) (listed : text ∈ texts) :
    Sits it texts text text (s.recorded.onContext .beginRun) where
  listed := listed
  known := known
  home := .run
  placed outer call inner split := by
    change [] = _ at split
    simp at split

end

/-- The texts, the last one first, were run one after the other on one fresh context. -/
inductive Session (it : Interpreter σ) : List String → State σ → Prop
  | start {context : Context} (host : σ) :
    it.newContext = .ok context → Session it [] ⟨context, host⟩
  | run {texts : List String} {text : String} {s s' : State σ} {result : Except Failure Unit} :
    Session it texts s → it.run text s = some (result, s') → Session it (text :: texts) s'

section

variable {it : Interpreter σ} {texts : List String} {text : String} {s s' : State σ}

/-- A run of a text knows afterwards what it defines, and points to where it fails. -/
lemma runScript_points (uses : it.Uses (Standard random streams)) (known : Known it texts s.context)
    (listed : text ∈ texts) {script : Script} (read : it.parse text = .ok script)
    {result : Except RuntimeError Unit} (ran : it.runScript script s = some (result, s')) :
    Known it texts s'.context ∧
      ∀ e, result = .error e → it.Pointed texts text (it.moments script.root s) e := by
  obtain ⟨s₁, interpreted, ended⟩ := interpret_of_runPiece (exists_recorded ran)
  obtain ⟨leads, pointed⟩ := script_points uses (parse_over read) (sits_beginRun known listed) rfl
    _ _ interpreted
  have context : s'.context = s₁.context.endRun := congrArg State.context ended
  rw [moments_eq interpreted, context]
  exact ⟨leads.known known, pointed⟩

/-- Every definition of a session stands in one of its texts. -/
lemma Session.known (uses : it.Uses (Standard random streams))
    (initialized : it.initializers = [Library.bindTruth]) (session : it.Session texts s) :
    Known it texts s.context := by
  induction session with
  | start host fresh =>
    rw [newContext, initialized] at fresh
    cases fresh
    exact fun key definition found => nomatch found
  | @run texts text s s' result _ ran ih =>
    have more := ih.mono (List.subset_cons_self text texts)
    rcases run_cases ran with ⟨_, _, _, rfl⟩ | ⟨script, ended, read, ran, _⟩
    · exact more
    · exact (runScript_points uses more List.mem_cons_self read ran).1

end

/-- A text that defines a call whose body calls something that is not there. -/
def lostDefinition : String :=
  "\n\n\n!def(f) \x7b lost \x7d"

/-- The error of that call. -/
def lostBehind : RuntimeError where
  fault := .noCall .command "lost"
  location := some ⟨3, 10⟩
  backtrace := [⟨"f", .command, [], .origin⟩, ⟨"lost", .command, [], ⟨3, 10⟩⟩]

/-- The text that calls it ends in the error. -/
lemma lostBehind_ran : ∃ s s', Console.interpreter.Session [lostDefinition] s ∧
    Console.interpreter.run "f" s = some (.error (.runtime lostBehind), s') := by
  obtain ⟨context, fresh⟩ : ∃ context, Console.interpreter.newContext = .ok context := ⟨_, rfl⟩
  have ends : (Console.interpreter.newContext.toOption.bind fun context =>
      (Console.interpreter.run lostDefinition ⟨context, Console.start [] 0⟩).bind fun defined =>
        (Console.interpreter.run "f" defined.2).map Prod.fst) =
      some (.error (.runtime lostBehind)) := by
    decide +kernel
  simp only [fresh, Except.toOption, Option.bind_some] at ends
  obtain ⟨⟨_, s⟩, defined, ends⟩ := Option.bind_eq_some_iff.1 ends
  obtain ⟨⟨_, s'⟩, ran, rfl⟩ := Option.map_eq_some_iff.1 ends
  exact ⟨s, s', .run (.start _ fresh) defined, ran⟩

/-- The error is not placed in the text that was run. -/
theorem lostBehind_elsewhere : ∃ s s',
    Console.interpreter.Session [lostDefinition] s ∧
    Console.interpreter.run "f" s = some (.error (.runtime lostBehind), s') ∧
    ∃ location, lostBehind.location = some location ∧
      ¬Console.interpreter.TokenStart "f" location := by
  obtain ⟨s, s', session, ran⟩ := lostBehind_ran
  refine ⟨s, s', session, ran, _, rfl, ?_⟩
  obtain ⟨listed, read, apart⟩ : ∃ listed, tokenize Console.interpreter.options "f" = .ok listed ∧
      ∀ t ∈ listed, t.start ≠ ⟨3, 10⟩ := ⟨_, rfl, by decide⟩
  rintro ⟨token, ⟨tokens, split, mem⟩, start⟩
  cases read.symm.trans split
  exact apart token mem start

end Interpreter

end Scriptlet
