import Scriptlet.Proofs.Choice.Calls
import Scriptlet.Proofs.Scope.Global

/-!
# No body without its chain

Every statement of a frame is counted, and nothing but a control call made right in the frame touches
its mark. So an `elif` or an `else` that is run finds the chain open only if the statement started
last in the frame opened it, and that statement stands right before it. Every run keeps this up
(`run_ordered`), and so no body is run without a chain (`no_orphan_branch`).
-/

namespace Scriptlet

open Evaluation

variable {σ γ : Type} [RandomSource γ] {random : Slot σ γ} {streams : Slot σ Streams}

namespace Interpreter

section

variable {it : Interpreter σ} {body : List (Statement Token)} {fuel : Nat}
  {origin : Statement Token → Prop} {number : Nat} {s s' : State (Recorded σ)}

/-- Each of the statements in a list is run behind the one in front of it. -/
lemma sequence_ordered (runs : it.Ordered body fuel) (outer : Statement Token)
    (front : List (Statement Token)) {rest : List (Statement Token)}
    (listed : Listed body (front ++ rest))
    {result : Except RuntimeError Unit}
    (h : Between body (fun last => front ≠ [] ∧ last = Statement.lastOf outer front) number number s)
    (ran : sequence (fun statement => it.recorded.runNode fuel (.statement statement)) rest s =
      some (result, s')) :
    Sound body s' ∧ (result = .ok () → s'.context.flow = .next → ∃ number',
      Between body (fun last => last = Statement.lastOf outer (front ++ rest)) number' number' s') := by
  -- along the statements that are left: those in front have been run, the last of them just now
  induction rest generalizing front number s with
  | nil =>
    cases ran
    refine ⟨h.toSound, fun _ _ => ⟨number, h.imp fun last known => ?_⟩⟩
    rw [List.append_nil]
    exact known.2
  | cons statement rest ih =>
    cases flow : s.context.isInterrupted with
    | true =>
      rw [sequence_of_interrupted flow] at ran
      cases ran
      exact ⟨h.toSound, fun _ next => absurd next (of_decide_eq_true flow)⟩
    | false =>
      have before : ∀ last, front ≠ [] ∧ last = Statement.lastOf outer front →
          statement.MayContinue → Before body last statement := by
        rintro _ ⟨some, rfl⟩ -
        obtain ⟨more, previous, rfl⟩ := (List.eq_nil_or_concat front).resolve_left some
        rw [List.concat_eq_append, List.append_assoc] at listed
        rw [List.concat_eq_append, Statement.lastOf_concat]
        exact .sibling listed
      rw [sequence_of_next flow] at ran
      rcases bind_cases ran with ⟨_, s₁, first, others⟩ | ⟨error, failed, rfl⟩
      · have within := listed.within (List.mem_append_right _ List.mem_cons_self)
        obtain ⟨sound, behind⟩ := runs statement _ number s _ s₁ within before h first
        by_cases next : s₁.context.flow = .next
        · obtain ⟨number', between⟩ := behind rfl next
          rw [List.append_cons] at listed ⊢
          refine ih _ listed (between.imp fun last after => ⟨?_, ?_⟩) others
          · exact List.append_ne_nil_of_right_ne_nil _ (List.cons_ne_nil _ _)
          · rw [Statement.lastOf_concat]
            exact after.1
        · rw [sequence_of_interrupted (decide_eq_true next)] at others
          cases others
          exact ⟨sound, fun _ goes_on => absurd goes_on next⟩
      · have within := listed.within (List.mem_append_right _ List.mem_cons_self)
        exact ⟨(runs statement _ number s _ s' within before h failed).1, fun ok => by cases ok⟩

/-- Whatever a statement does, its branches come in order, if those of the statements in it do. -/
lemma perform_ordered (uses : it.Uses (Standard random streams)) (runs : it.Ordered body fuel)
    (expands : ∀ token name args origin number statements,
      Maintains (Between body origin number statements) (it.recorded.expand fuel token name args)
        (it.recorded.expand fuel token name args))
    {statement : Statement Token} (within : Within body statement)
    (before : ∀ earlier, origin earlier → statement.MayContinue → Before body earlier statement)
    (h : Between body origin number (number + 1) s) {result : Except RuntimeError Unit}
    (ran : it.recorded.perform (it.recorded.runNode fuel) (it.recorded.expand fuel) fuel
      (.statement statement) s = some (result, s')) :
    Sound body s' ∧ (result = .ok () → s'.context.flow = .next →
      ∃ number', Between body (statement.After origin) number' number' s') := by
  cases statement with
  | block token inner =>
    -- no statement was started in the block yet
    obtain ⟨sound, behind⟩ := sequence_ordered runs (.block token inner) []
      (.block within) h.next ran
    refine ⟨sound, fun ok next => ?_⟩
    obtain ⟨number', between⟩ := behind ok next
    refine ⟨number', between.imp fun last same => ⟨same.trans ?_, False.elim⟩⟩
    rw [Statement.last]
    rfl
  | command name args =>
    have other : CallKind.command ≠ .control := by decide
    rcases bind_cases ran with ⟨_, s₁, called, ended⟩ | ⟨error, failed, rfl⟩
    · cases ended
      obtain ⟨sound, between⟩ := call_between expands uses runs h called other
      exact ⟨sound, fun _ next => ⟨_, (between (by rw [next]; decide)).next⟩⟩
    · exact ⟨(call_between expands uses runs h failed other).1, fun ok => by cases ok⟩
  | control token name args decided =>
    have control : ∀ (ended : Except RuntimeError String) s₁,
        it.recorded.call (it.recorded.runNode fuel) (it.recorded.expand fuel) fuel
          ⟨.control, name, args, some decided, .statement (.control token name args decided),
            (Statement.control token name args decided).start⟩ s = some (ended, s₁) →
        Sound body s₁ ∧ ∀ value, ended = .ok value → s₁.context.flow ≠ .leaving →
          Between body ((Statement.control token name args decided).After origin) (number + 1)
            (number + 1) s₁ := by
      intro ended s₁ called
      rcases call_cases expands h called with ⟨_, rfl, after⟩ | ⟨_, _, s₀, between, literal, served⟩
      · exact ⟨after.toSound, fun _ ok => by cases ok⟩
      · exact serve_control uses runs expands rfl within before rfl literal between served
    rcases bind_cases ran with ⟨value, s₁, called, ended⟩ | ⟨error, failed, rfl⟩
    · cases ended
      obtain ⟨sound, between⟩ := control _ _ called
      exact ⟨sound, fun _ next => ⟨_, between value rfl (by rw [next]; decide)⟩⟩
    · exact ⟨(control _ _ failed).1, fun ok => by cases ok⟩

/-- Every statement of a run is in order, and no expansion comes between two statements. -/
lemma run_ordered (uses : it.Uses (Standard random streams)) (body : List (Statement Token))
    (fuel : Nat) :
    it.Ordered body fuel ∧ ∀ token name args origin number statements,
      Maintains (Between body origin number statements) (it.recorded.expand fuel token name args)
        (it.recorded.expand fuel token name args) := by
  induction fuel with
  | zero =>
    refine ⟨?_, ?_⟩
    · intro statement origin number s result s' _ _ _ ran
      cases ran
    · intro token name args origin number statements s result s' ran
      cases ran
  | succ fuel ih =>
    obtain ⟨runs, expands⟩ := ih
    refine ⟨?_, ?_⟩
    · intro statement origin number s result s' within before h ran
      rw [runNode] at ran
      rcases bind_cases ran with ⟨_, s₁, step, rest⟩ | ⟨error, failed, rfl⟩
      · obtain rfl := step_recorded_state step
        exact perform_ordered uses runs expands within before (h.takeStep _).countStatement rest
      · obtain rfl := step_recorded_state failed
        exact ⟨(h.takeStep _).toSound, fun ok => by cases ok⟩
    · intro token name args origin number statements s result s' ran h
      obtain ⟨mode, reading, flow⟩ := Flow.exists_reading h.flow
      obtain ⟨last, reached, goes⟩ := (run_carries uses (fuel + 1)).2 token name args mode reading s
        (.of_reading reading flow) _ _ ran
      rw [Interpreter.expand] at ran
      rcases bind_cases ran with ⟨_, s₁, step, called⟩ | ⟨error, failed, rfl⟩
      · obtain rfl := step_recorded_state step
        have other : CallKind.expansion ≠ .control := by decide
        refine (call_between expands uses runs (h.takeStep _) called other).2 ?_
        rw [goes.flow]
        exact reached.flow_ne_leaving
      · obtain rfl := step_recorded_state failed
        exact h.takeStep _

/-- A run that starts in order is licit all along. -/
lemma script_sound (uses : it.Uses (Standard random streams))
    (h : Between body (fun _ => False) 0 0 s) {result : Except RuntimeError Unit}
    (ran : it.recorded.runNode fuel (.script body) s = some (result, s')) : Sound body s' := by
  cases fuel with
  | zero => cases ran
  | succ fuel =>
    rw [runNode] at ran
    rcases bind_cases ran with ⟨_, s₁, step, rest⟩ | ⟨error, failed, rfl⟩
    · obtain rfl := step_recorded_state step
      have counted : Between body (fun _ => False) 0 1
          (withScopes (·.modifyTop Frame.countStatement) (it.takeStep (Node.script body).start s)) :=
        (h.takeStep _).countStatement
      exact (sequence_ordered (run_ordered uses body fuel).1 default [] .script counted.next rest).1
    · obtain rfl := step_recorded_state failed
      exact (h.takeStep _).toSound

/-- A fresh context of the base library has neither definitions nor an open chain. -/
lemma newContext_between (initialized : it.initializers = [Library.bindTruth]) {context : Context}
    (fresh : it.newContext = .ok context) (body : List (Statement Token)) (host : σ) :
    Between body (fun _ => False) 0 0 ((State.recorded ⟨context, host⟩).onContext .beginRun) := by
  rw [newContext, initialized] at fresh
  cases fresh
  let first := Context.initial.update (.set "true" (Reading.ofBool true))
  let context := first.update (.set "false" (Reading.ofBool false))
  have shape : context.scopes.shape = ScopeStack.initial.shape :=
    (first.shape_update _).trans (Context.initial.shape_update _)
  have agree : ScopeStack.Agree 0 context.scopes ScopeStack.initial :=
    (first.agree_set _ _).trans (Context.initial.agree_set _ _)
  have unwound : context.scopes.unwind = context.scopes :=
    ScopeStack.unwind_of_depth (ScopeStack.depth_eq_of_shape shape)
  refine .enter ⟨fun key definition found => (nomatch found), lawful_nil body⟩ ?_ nofun ?_
  · have licensed : Licensed ScopeStack.initial [] := fun continues => nomatch continues.1
    refine licensed.of_shape ?_
    show context.scopes.unwind.shape = _
    rw [unwound, shape]
  · show context.scopes.unwind.top.mark = _
    rw [unwound]
    exact agree.top

/-- What is run in the frame of an `elif` or an `else` is its body. That happens only if the call found
the chain open when it was served, and then the chain was opened by an `if` or an `elif` that was
served as the statement started before it in the frame around both, which was not left in between;
and the one stands right before the other in the script, or is the same one in the round before. -/
theorem no_orphan_branch (uses : it.Uses (Standard random streams))
    (initialized : it.initializers = [Library.bindTruth]) {context : Context}
    (fresh : it.newContext = .ok context) (host : σ) (script : Script) {earlier later : List Moment}
    {moment : Moment} {location : Location}
    (split : it.moments script.root ⟨context, host⟩ = earlier ++ moment :: later)
    (starts : moment.event = .step location)
    (continues : moment.context.scopes.top.call.Continues) :
    ∃ (calls : List ActiveCall) (before between after : List Moment) (opened served : Moment)
      (opener : ActiveCall) (first second : Statement Token),
      earlier = before ++ opened :: between ++ served :: after ∧
      opened.Serves calls first opener ∧ opener.Opens ∧
      served.Serves calls second moment.context.scopes.top.call ∧
      served.context.scopes.backtrace = moment.context.scopes.backtrace ∧
      served.context.scopes.parent.chainOpen = true ∧
      served.context.scopes.parent.openChain = some opened.context.scopes.parent.statements ∧
      (∀ meanwhile ∈ between, calls <+: meanwhile.context.scopes.backtrace) ∧
      Before script.body first second := by
  cases ran : it.recorded.runPiece script.root (State.recorded ⟨context, host⟩) with
  | none =>
    rw [moments, momentsFrom, ran] at split
    cases earlier <;> cases split
  | some ended =>
    obtain ⟨result, s'⟩ := ended
    obtain ⟨s₁, interpreted, -⟩ := interpret_of_runPiece ran
    have start := newContext_between initialized fresh script.body host
    have sound := script_sound uses start interpreted
    have lawful := sound.lawful
    rw [← moments_eq interpreted, split] at lawful
    obtain ⟨served, mem, event, calls_eq, chain⟩ := (lawful _ _ _ rfl).step location starts continues
    obtain ⟨front, after, rfl⟩ := List.append_of_mem mem
    have licit := lawful front served (after ++ moment :: later) (by simp)
    obtain ⟨calls, second, number, serves, isOpen, before, opened, between, opener, first, rfl, opens,
      opening, known, number_eq, stays⟩ := licit.handler _ event continues chain
    exact ⟨calls, before, between, after, opened, served, opener, first, second, by simp, opens,
      opening, serves, calls_eq, chain, number_eq ▸ isOpen, stays, known⟩

end

/-- An `if` as the last statement of a block. -/
def ifInBlock : Statement Token :=
  .control ⟨.bang, "!", ⟨⟨0, 2⟩, ⟨0, 3⟩⟩, true⟩ (.literal default "if") [.literal default "0"]
    (.command (.literal default "set") [.literal default "x", .literal default "a"])

/-- An `else` behind the block. -/
def elseBehind : Statement Token :=
  .control ⟨.bang, "!", ⟨⟨1, 0⟩, ⟨1, 1⟩⟩, false⟩ (.literal default "else") []
    (.command (.literal default "set") [.literal default "x", .literal default "b"])

/-- A script of the block and the `else` behind it. -/
def elseBehindBlock : Script :=
  ⟨"\x7b !if(0) set x a \x7d\n!else set x b", [.block default [ifInBlock], elseBehind]⟩

/-- The body of the `else` is run. -/
lemma elseBehindBlock_runs :
    ∃ context moment, Console.interpreter.newContext = .ok context ∧
      moment ∈ Console.interpreter.moments elseBehindBlock.root ⟨context, Console.start [] 0⟩ ∧
      moment.event = .step .origin ∧
      moment.context.scopes.top.call = ⟨"else", .control, [], ⟨1, 0⟩⟩ := by
  obtain ⟨context, fresh⟩ : ∃ context, Console.interpreter.newContext = .ok context := ⟨_, rfl⟩
  have run : (Console.interpreter.newContext.toOption.bind fun context =>
      (Console.interpreter.moments elseBehindBlock.root ⟨context, Console.start [] 0⟩)[6]?.map
        fun moment => (moment.event, moment.context.scopes.top.call)) =
      some (.step .origin, ⟨"else", .control, [], ⟨1, 0⟩⟩) := by
    decide +kernel
  simp only [fresh, Except.toOption, Option.bind_some] at run
  obtain ⟨moment, found, same⟩ := Option.map_eq_some_iff.1 run
  obtain ⟨event, call⟩ := Prod.mk.inj same
  exact ⟨context, moment, fresh, List.mem_of_getElem? found, event, call⟩

/-- The chain that the `else` continues is that of the `if`. -/
theorem elseBehindBlock_chained :
    ∃ context earlier moment later, Console.interpreter.newContext = .ok context ∧
      Console.interpreter.moments elseBehindBlock.root ⟨context, Console.start [] 0⟩ =
        earlier ++ moment :: later ∧
      moment.context.scopes.top.call.Continues ∧
      ∃ opened ∈ earlier, ∃ calls opener first second, opened.Serves calls first opener ∧
        opener.Opens ∧ second.Makes moment.context.scopes.top.call ∧
        Before elseBehindBlock.body first second := by
  obtain ⟨context, moment, fresh, mem, event, call⟩ := elseBehindBlock_runs
  obtain ⟨earlier, later, split⟩ := List.append_of_mem mem
  have continues : moment.context.scopes.top.call.Continues := by
    rw [call]
    exact ⟨rfl, .inr rfl⟩
  obtain ⟨calls, before, between, after, opened, served, opener, first, second, rfl, opening, opens,
    serves, -, -, -, -, known⟩ := no_orphan_branch Console.interpreter_uses rfl fresh
      (Console.start [] 0) elseBehindBlock split event continues
  refine ⟨context, _, moment, later, fresh, split, continues, opened, ?_, calls, opener, first,
    second, opening, opens, serves.makes, known⟩
  simp

/-- There is nothing in the script but a block that holds the `if`, and the two calls and their
bodies. -/
lemma elseBehindBlock_within {statement : Statement Token}
    (h : Within elseBehindBlock.body statement) :
    statement ∈ [.block default [ifInBlock], ifInBlock, elseBehind] ∨
      ∃ name args, statement = .command name args := by
  simp only [List.mem_cons, List.not_mem_nil, or_false]
  induction h with
  | listed mem =>
    simp only [elseBehindBlock, List.mem_cons, List.not_mem_nil, or_false] at mem
    rcases mem with rfl | rfl <;> simp
  | inBlock _ mem ih =>
    rcases ih with (same | same | same) | ⟨_, _, same⟩ <;> cases same
    exact .inl (.inr (.inl (List.mem_singleton.1 mem)))
  | asBody _ ih =>
    rcases ih with (same | same | same) | ⟨_, _, same⟩ <;> cases same <;> exact .inr ⟨_, _, rfl⟩

/-- The body of the `else` is run, although the statement in front of it is a block and no `if`. -/
theorem else_continues_out_of_block :
    ∃ context moment, Console.interpreter.newContext = .ok context ∧
      moment ∈ Console.interpreter.moments elseBehindBlock.root ⟨context, Console.start [] 0⟩ ∧
      (∃ location, moment.event = .step location) ∧ moment.context.scopes.top.call.Continues ∧
      ∀ front first second behind,
        Listed elseBehindBlock.body (front ++ first :: second :: behind) →
        second.Makes moment.context.scopes.top.call → ∀ opener, ¬ first.Makes opener := by
  obtain ⟨context, moment, fresh, mem, event, call⟩ := elseBehindBlock_runs
  refine ⟨context, moment, fresh, mem, ⟨_, event⟩, ?_, ?_⟩
  · rw [call]
    exact ⟨rfl, .inr rfl⟩
  · rintro front first second behind listed - opener ⟨origin, name, args, body, rfl, -⟩
    generalize together : front ++ _ = statements at listed
    cases listed with
    | script =>
      rcases front with _ | ⟨_, _ | ⟨_, _⟩⟩ <;> simp [elseBehindBlock] at together
    | block within =>
      rcases elseBehindBlock_within within with known | ⟨_, _, same⟩
      · simp only [List.mem_cons, List.not_mem_nil, or_false] at known
        rcases known with same | same | same <;> cases same
        rcases front with _ | ⟨_, _ | ⟨_, _⟩⟩ <;> simp at together
      · cases same

end Interpreter

end Scriptlet
