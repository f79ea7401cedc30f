import Scriptlet.Proofs.Loop.Unrolling
import Scriptlet.Proofs.Scope.Forwarding

/-!
# Loops and the choices that they unroll to

A `while` reads its condition once where it stands, and from then on its rounds do. It comes to the
same as an `if` with this condition, whose body is that of the loop and the loop again
(`while_unrolls`): the ends, the frames, the definitions, the host and the calls are the same, but for
the calls of the `while` and the `if` themselves (`Unrolled`).
-/

namespace Scriptlet

open Evaluation

namespace Interpreter

variable {σ γ : Type} [RandomSource γ] {random : Slot σ γ} {streams : Slot σ Streams}
  {it : Interpreter σ} {condition : List (Word Token)} {body : Statement Token} {p : Splice}
  {q r : Past} {counted : Nat} {s t : State (Recorded σ)}

/-- A loop and the choice that it unrolls to end alike: in the same way, or both because their
conditions do not give one argument. -/
inductive AlikeEnds (loop choice : Location) : Except RuntimeError Unit → Except RuntimeError Unit → Prop
  | ok : AlikeEnds loop choice (.ok ()) (.ok ())
  | error {e e' : RuntimeError} :
    e.fault = e'.fault →
    e.location = e'.location →
    AlikeEnds loop choice (.error e) (.error e')
  | arity {e e' : RuntimeError} {given : Nat} :
    given ≠ 1 →
    e.fault = .wrongArgumentCount "while" 1 given ∧ e.location = some loop →
    e'.fault = .wrongArgumentCount "if" 1 given ∧ e'.location = some choice →
    AlikeEnds loop choice (.error e) (.error e')

/-- The same calls were served for a loop and for the choice that it unrolls to, but for their own and
for that of the loop behind the first body. -/
def AlikeCalls (loop choice again : Location) (before : List Event) (s t : State (Recorded σ)) : Prop :=
  ∃ first own own' second inner third,
    s.calls = before ++ first ++ own ++ second ++ third ∧
      t.calls = before ++ first ++ own' ++ second ++ inner ++ third ∧
      (own = [] ∧ own' = [] ∨ ∃ args, own = [.handler ⟨"while", .control, args, loop⟩] ∧
        own' = [.handler ⟨"if", .control, args, choice⟩]) ∧
      (inner = [] ∨ ∃ args, inner = [.handler ⟨"while", .control, args, again⟩])

/-- A loop and the choice that it unrolls to come to the same. -/
structure Unrolled (loop choice again : Location) (before : List Event)
    (ended ended' : Except RuntimeError Unit × State (Recorded σ)) : Prop where
  result : AlikeEnds loop choice ended.1 ended'.1
  frames : ∀ n : Nat, Option.Rel Frame.SameData ended.2.context.scopes.frames[n]?
    ended'.2.context.scopes.frames[n]?
  definitions : ended.2.context.definitions = ended'.2.context.definitions
  flow : ended.2.context.flow = ended'.2.context.flow
  host : ended.2.host.host = ended'.2.host.host
  calls : AlikeCalls loop choice again before ended.2 ended'.2

/-- The condition of a `while` is read for the first time, and its call begins. -/
def Begins (it : Interpreter σ) (site : CallSite) (s : State (Recorded σ))
    (reading : List String × State (Recorded σ)) : Prop :=
  ∃ s₁, (it.recorded.step site.location >>= fun _ => countStatement >>= fun _ => it.reads site.args) s =
      some (.ok reading.1, s₁) ∧
    s₁.context.isStopped = false ∧
    (it.limits.maxCallDepth = 0 ∨ s₁.context.scopes.depth < it.limits.maxCallDepth) ∧
    reading.2 = it.served ⟨"while", .control, reading.1, site.location⟩ s₁

section

variable {loop choice again : Location} {before : List Event}

/-- Before the calls begin, nothing can be told apart. -/
lemma unrolled_outside {result result' : Except RuntimeError Unit} (same : SameEnd True result result')
    (h : s.Spliced p q r counted 0 t) (alone : p.extra = 0) (calls : State.SameCalls before before s t) :
    Unrolled loop choice again before (result, s) (result', t) where
  result := by
    cases same with
    | ok _ => exact .ok
    | error fault location _ => exact .error fault location
  frames n := by
    rcases Nat.lt_or_ge n p.base with lt | beyond
    · exact h.context.scopes.sameData lt
    · have left := h.context.scopes.left
      have right := h.context.scopes.right
      have ended : s.context.scopes.frames[n]? = none := by
        rw [List.getElem?_eq_none_iff, ScopeStack.length_frames]
        omega
      have ended' : t.context.scopes.frames[n]? = none := by
        rw [List.getElem?_eq_none_iff, ScopeStack.length_frames]
        omega
      show Option.Rel _ s.context.scopes.frames[n]? t.context.scopes.frames[n]?
      rw [ended, ended']
      exact .none
  definitions := h.context.definitions
  flow := h.context.flow
  host := h.host
  calls := by
    obtain ⟨news, left, right⟩ := calls
    exact ⟨news, [], [], [], [], [], by simpa using left, by simpa using right, .inl ⟨rfl, rfl⟩, .inl rfl⟩

/-- When the calls that began end, what the frames around them hold is the same. -/
lemma frames_leave {last : Nat} (inside : 0 < last) (h : s.Beside last t) (n : Nat) :
    Option.Rel Frame.SameData s.context.scopes.pop.frames[n]? t.context.scopes.pop.frames[n]? := by
  rw [ScopeStack.getElem?_frames_pop _ (h.left ▸ inside),
    ScopeStack.getElem?_frames_pop _ (h.right ▸ inside), h.left, h.right]
  split
  · rename_i lt
    exact h.frames n lt
  · exact .none

/-- The calls that began end after what happened in them. -/
lemma unrolled_leave {last : Nat} (inside : 0 < last) (calls : State.SameCalls before before s t)
    (args : List String) {ended ended' : Except RuntimeError Unit × State (Recorded σ)} :
    let call : ActiveCall := ⟨"while", .control, args, loop⟩
    let call' : ActiveCall := ⟨"if", .control, args, choice⟩
    AlikeEnds loop choice (Evaluation.leave (.ofCall call false) ended).1
        (Evaluation.leave (.ofCall call' false) ended').1 →
      ended.2.Beside last ended'.2 →
      State.SplitCalls again (it.served call s).calls (it.served call' t).calls ended.2 ended'.2 →
      Unrolled loop choice again before (Evaluation.leave (.ofCall call false) ended)
        (Evaluation.leave (.ofCall call' false) ended') := by
  intro call call' same beside split
  have alike : AlikeCalls loop choice again before ended.2 ended'.2 := by
    obtain ⟨news, left, right⟩ := calls
    obtain ⟨first, inner, second, left', right', own⟩ := split
    refine ⟨news, [.handler call], [.handler call'], first, inner, second, ?_, ?_,
      .inr ⟨args, rfl, rfl⟩, own⟩
    · rw [left', calls_served, left]
    · rw [right', calls_served, right]
  refine ⟨same, ?_, ?_, ?_, ?_, ?_⟩
  all_goals rw [leave_snd, leave_snd]
  · exact frames_leave inside beside
  · exact beside.definitions
  · exact beside.flow
  · exact beside.host
  · exact alike

/-- What ends alike in the calls that began has come to the same when these are left. -/
lemma EndsBeside.unrolled {last : Nat} (inside : 0 < last) (calls : State.SameCalls before before s t)
    (args : List String) {ended ended' : Except RuntimeError Unit × State (Recorded σ)} :
    let call : ActiveCall := ⟨"while", .control, args, loop⟩
    let call' : ActiveCall := ⟨"if", .control, args, choice⟩
    EndsBeside last again (it.served call s).calls (it.served call' t).calls ended ended' →
      Unrolled loop choice again before (Evaluation.leave (.ofCall call false) ended)
        (Evaluation.leave (.ofCall call' false) ended') := by
  rintro call call' ⟨same, beside, split⟩
  refine unrolled_leave inside calls args ?_ beside split
  obtain ⟨result, s'⟩ := ended
  obtain ⟨result', t'⟩ := ended'
  cases same with
  | ok _ => exact .ok
  | error fault location has =>
    rw [Evaluation.leave, Evaluation.leave, RuntimeError.locate_of_isSome (has trivial),
      RuntimeError.locate_of_isSome (location ▸ has trivial)]
    exact .error fault location

end

/-- The controls of the base library are served by one handler. -/
lemma Uses.handlerFor?_control (uses : it.Uses (Standard random streams)) {name name' : String}
    {handler : Handler σ}
    (known : (Library.controls : Callbacks σ).toHandler.answersTo name = true)
    (found : Chain.handlerFor? (it.registry.chain .control) name' = some handler) :
    Chain.handlerFor? (it.registry.chain .control) name = some Library.controls.toHandler := by
  have controls := uses .control
  rw [Chain.handlerFor?] at found ⊢
  cases entries : (it.registry.chain .control).entries with
  | nil =>
    rw [entries] at found
    cases found
  | cons entry rest =>
    obtain ⟨owner, first⟩ := entry
    have standard : Standard random streams .control first :=
      controls (owner, first) (entries ▸ List.mem_cons_self)
    cases standard
    rw [Chain.firstFor, if_pos known]

/-- What a loop does whose condition was read for the first time. -/
lemma runs_of_begins (uses : it.Uses fun _ handler => handler.Orderly)
    (serving : Chain.handlerFor? (it.registry.chain .control) "while" =
      some Library.controls.toHandler) {origin named : Token}
    {reading : List String × State (Recorded σ)} :
    let site := controlSite origin (.literal named "while") condition body
    it.Begins site s reading →
      it.runs site.node s = ((if reading.1.length = 1 then it.loops condition body (Text.unwords reading.1)
        else fail (.wrongArgumentCount "while" 1 reading.1.length)) reading.2).map
          (leave (.ofCall ⟨"while", .control, reading.1, site.location⟩ false)) := by
  rintro site ⟨s₁, read, goes_on, room, begun⟩
  let called (given : List String) : ActiveCall := ⟨"while", .control, given, site.location⟩
  have reads : it.runs site.node =
      (it.recorded.step site.location >>= fun _ => countStatement >>= fun _ => it.reads site.args) >>=
        fun given => it.permit site.location () (inFrame (.ofCall (called given) false)
          (notify it.recorded.observe (.handler (called given)) >>= fun _ =>
            if given.length = 1 then it.loops condition body (Text.unwords given)
            else fail (.wrongArgumentCount "while" 1 given.length))) := by
    rw [runs_while uses serving origin named, bind_assoc]
    simp only [bind_assoc]
    rfl
  rw [reads, bind_of_ok read, permit_of_room goes_on room, inFrame_eq_map, bind_served, begun]

section

variable (uses : it.Uses (Standard random streams)) (unwatched : it.Unwatched)
  (endless : it.limits.maxSteps = 0) (shallow : it.limits.maxCallDepth = 0)
  (serving : Chain.handlerFor? (it.registry.chain .control) "while" =
    some Library.controls.toHandler)
include uses unwatched endless shallow serving

/-- A loop and the choice that it unrolls to come to the same from where their conditions have been
read. -/
lemma begun_unrolled (spliced : s.Spliced p q r 2 0 t) (alone : p.extra = 0)
    (next : s.context.flow = .next) {before : List Event} (calls : State.SameCalls before before s t)
    (args : List String) (loop choice : Location) (block again looped : Token) :
    let call : ActiveCall := ⟨"while", .control, args, loop⟩
    let call' : ActiveCall := ⟨"if", .control, args, choice⟩
    let inner := controlSite again (.literal looped "while") condition body
    let text := Text.unwords args
    it.LeavesShut body (it.served call s) →
    (∀ reading, it.Round condition body (args, it.served call s) reading →
      reading.1.length = 1 ∧ reading.2.context.isStopped = false) →
    Option.Rel (Unrolled loop choice inner.location before)
      (((if args.length = 1 then it.loops condition body text
          else fail (.wrongArgumentCount "while" 1 args.length)) (it.served call s)).map
        (leave (.ofCall call false)))
      (((if args.length = 1 then
          Evaluation.modify (·.update (.setChain !Reading.isTrue text)) >>= fun _ =>
            if Reading.isTrue text then it.runs (.statement (.block block
              [body, .control again (.literal looped "while") condition body])) else pure ()
          else fail (.wrongArgumentCount "if" 1 args.length)) (it.served call' t)).map
        (leave (.ofCall call' false))) := by
  intro call call' inner text shuts single
  have served := spliced_called unwatched spliced call call'
  by_cases one : args.length = 1
  · rw [if_pos one, if_pos one]
    have chosen := loops_chosen uses unwatched endless shallow serving served alone rfl ⟨rfl, rfl⟩ next
      args shuts single block again looped
    rcases ends_cases chosen with ⟨left, right⟩ | ⟨_, _, left, right, ends⟩
    · rw [left, right]
      exact .none
    · rw [left, right]
      exact .some (ends.unrolled p.inner calls args)
  · rw [if_neg one, if_neg one]
    have split : State.SplitCalls inner.location (it.served call s).calls (it.served call' t).calls
        (it.served call s) (it.served call' t) := (State.SameCalls.refl _ _).split _
    exact .some (unrolled_leave p.inner calls args (.arity one ⟨rfl, rfl⟩ ⟨rfl, rfl⟩)
      (served.beside alone) split)

/-- A loop comes to the same as the choice that it unrolls to, if its next reading gives one argument
and does not stop the run, and the body is not a call by an evaluated name that leaves an else-chain
open. -/
lemma runs_unrolled (sound : s.context.scopes.WellRedirected) (running : s.context.flow ≠ .leaving)
    (origin named choice picked block again looped : Token) :
    let site := controlSite origin (.literal named "while") condition body
    let inner := controlSite again (.literal looped "while") condition body
    let unrolled := controlSite choice (.literal picked "if") condition
      (.block block [body, .control again (.literal looped "while") condition body])
    (∀ first, it.Begins site s first → it.LeavesShut body first.2 ∧
      ∀ reading, it.Round condition body first reading →
        reading.1.length = 1 ∧ reading.2.context.isStopped = false) →
      Option.Rel (Unrolled site.location unrolled.location inner.location s.calls)
        (it.runs site.node s) (it.runs unrolled.node s) := by
  intro site inner unrolled steady
  have start : (it.entered site.node s).Spliced ⟨s.context.scopes.depth + 1, 0, Nat.succ_pos _⟩
      (it.entered site.node s).past (it.entered unrolled.node s).past 2 0
      (it.entered unrolled.node s) := by
    refine ⟨⟨(ScopeStack.Spliced.refl sound 2).countStatement, rfl, rfl⟩, ?_, State.since_now _ _⟩
    show it.observe _ _ _ = it.observe _ _ _
    rw [unwatched, unwatched]
  -- both are entered alike and read the same condition
  have settled : Settles 2 1 := .inr ⟨Nat.le_refl 1, Nat.le_refl 2⟩
  have read := reads_shadows uses unwatched endless shallow settled condition _ _ start
  have choosing : Chain.handlerFor? (it.registry.chain .control) "if" =
      some Library.controls.toHandler := Uses.handlerFor?_control uses rfl serving
  rw [runs_while uses.orderly serving origin named, runs_if uses.orderly choosing choice picked]
  show Option.Rel _
    ((it.recorded.step site.node.start >>= fun _ => countStatement >>= fun _ => _) s)
    ((it.recorded.step unrolled.node.start >>= fun _ => countStatement >>= fun _ => _) s)
  rw [begin_eq endless, begin_eq endless]
  rcases ends_cases read with
    ⟨left, right⟩ | ⟨⟨_, s₁⟩, ⟨_, t₁⟩, left, right, same, spliced⟩
  · show Option.Rel _ (andThen _ _ _) (andThen _ _ _)
    rw [andThen, andThen, left, right]
    exact .none
  have calls : State.SameCalls s.calls s.calls s₁ t₁ := by
    have since : State.SameCalls (it.entered site.node s).calls (it.entered unrolled.node s).calls
      s₁ t₁ := spliced.sameCalls
    rwa [calls_entered, calls_entered] at since
  cases same with
  | error fault location has =>
    rw [bind_of_error left, bind_of_error right]
    exact .some (unrolled_outside (.error fault location has) spliced rfl calls)
  | ok args =>
    rw [bind_of_ok left, bind_of_ok right]
    cases stopped : s₁.context.isStopped with
    | true =>
      have stopped' : t₁.context.isStopped = true := spliced.isStopped.symm.trans stopped
      rw [permit_of_stopped stopped, permit_of_stopped stopped']
      exact .some (unrolled_outside (.ok ()) spliced rfl calls)
    | false =>
      have goes_on : t₁.context.isStopped = false := spliced.isStopped.symm.trans stopped
      rw [permit_of_room stopped (.inl shallow), permit_of_room goes_on (.inl shallow), inFrame_eq_map,
        inFrame_eq_map, bind_served, bind_served]
      -- only here do the loop and the choice part
      have next : s₁.context.flow = .next :=
        next_reads uses (s := it.entered site.node s) running left stopped
      let call : ActiveCall := ⟨"while", .control, args, site.location⟩
      have begins : it.Begins site s (args, it.served call s₁) :=
        ⟨s₁, (begin_eq endless site.node _ s).trans left, stopped, .inl shallow, rfl⟩
      obtain ⟨shuts, single⟩ := steady _ begins
      exact begun_unrolled uses unwatched endless shallow serving spliced rfl next calls args
        site.location unrolled.location block again looped shuts single

end

/-- A `while` takes one argument at first. From then on it goes through its rounds and ends where they
do, and no number of arguments that a later reading gives is an error: they are put together with
spaces. Without ceilings, it comes to the same as an `if` that has the same condition, and whose body
is that of the loop and the loop again, if the second reading gives one argument and does not stop the
run, and the first body leaves no else-chain open. -/
theorem while_unrolls (uses : it.Uses fun _ handler => handler.Orderly)
    (serving : Chain.handlerFor? (it.registry.chain .control) "while" =
      some Library.controls.toHandler)
    (origin named : Token) (condition : List (Word Token)) (body : Statement Token)
    (s : State (Recorded σ)) :
    let site := controlSite origin (.literal named "while") condition body
    let ends (given : List String) : Except RuntimeError Unit × State (Recorded σ) → _ :=
      leave (.ofCall ⟨"while", .control, given, site.location⟩ false)
    (∀ first, it.Begins site s first →
      (first.1.length ≠ 1 → it.runs site.node s =
        some (ends first.1 (.error (.ofFault (.wrongArgumentCount "while" 1 first.1.length)), first.2))) ∧
      (first.1.length = 1 → ∀ ended, it.runs site.node s = some ended ↔
        ∃ inner, it.LoopEnds condition body first inner ∧ ends first.1 inner = ended)) ∧
    ∀ (γ : Type) [RandomSource γ] (random : Slot σ γ) (streams : Slot σ Streams),
      it.Uses (Standard random streams) → it.Unwatched → it.limits.maxSteps = 0 →
      it.limits.maxCallDepth = 0 →
      s.context.scopes.WellRedirected → s.context.flow ≠ .leaving →
      ∀ choice picked block again looped : Token,
        let inner := controlSite again (.literal looped "while") condition body
        let unrolled := controlSite choice (.literal picked "if") condition
          (.block block [body, .control again (.literal looped "while") condition body])
        (∀ first, it.Begins site s first → it.LeavesShut body first.2 ∧
          ∀ next, it.Round condition body first next →
            next.1.length = 1 ∧ next.2.context.isStopped = false) →
          Option.Rel (Unrolled site.location unrolled.location inner.location s.calls)
            (it.runs site.node s) (it.runs unrolled.node s) := by
  intro site ends
  refine ⟨fun first begins => ?_, fun γ _ random streams standard unwatched endless shallow sound running
    choice picked block again looped => ?_⟩
  · have ran := runs_of_begins uses serving begins
    refine ⟨fun other => ?_, fun one ended => ?_⟩
    · rw [ran, if_neg other]
      rfl
    · rw [ran, if_pos one, Option.map_eq_some_iff]
      exact exists_congr fun inner => and_congr_left fun _ => loops_eq_some uses
  · exact runs_unrolled standard unwatched endless shallow serving sound running origin named choice
      picked block again looped

/-- A condition that is a variable gives one argument whenever it gives any, and changes nothing. -/
lemma reads_reference {origin token : Token} {name : String} {args : List String}
    (read : it.reads [.reference origin (.literal token name)] s = some (.ok args, t)) :
    t = s ∧ ∃ value, s.context.get? name = some value ∧ args = [value] := by
  obtain ⟨fuel, read⟩ := exists_of_enough read
  obtain ⟨first, s₁, slot, rest⟩ := bind_ok read
  cases rest
  obtain ⟨value, s₂, evaluated, single⟩ := bind_ok slot
  cases single
  rw [Word.evaluate] at evaluated
  obtain ⟨literal, s₃, named, evaluated⟩ := bind_ok evaluated
  rw [Word.evaluate] at named
  cases named
  obtain ⟨c, s₄, looked, evaluated⟩ := bind_ok evaluated
  cases looked
  cases found : s.context.get? name with
  | none =>
    rw [found] at evaluated
    cases evaluated
  | some value =>
    rw [found] at evaluated
    cases evaluated
    exact ⟨rfl, value, rfl, rfl⟩

/-- Takes on the next of two values. -/
def shift : Statement Token :=
  let word (content : String) : Word Token := .literal default content
  .block default [.command (word "set") [word "value", .reference default (word "next")],
    .command (word "set") [word "next", word "0"]]

/-- A loop of two rounds does what a choice does whose body is the first of them and the loop. -/
theorem shift_unrolls :
    let it := Console.interpreter.withLimits ⟨0, 0, 0⟩
    let s : State (Recorded Console.Host) := ⟨(Context.initial.update (.set "value" "a")).update
      (.set "next" "b"), Console.start [] 0, []⟩
    let value : Word Token := .reference default (.literal default "value")
    let site := controlSite default (.literal default "while") [value] shift
    let unrolled := controlSite default (.literal default "if") [value]
      (.block default [shift, .control default (.literal default "while") [value] shift])
    ∃ ended ended', it.runs site.node s = some ended ∧ it.runs unrolled.node s = some ended' ∧
      ended.1 = .ok () ∧ ended.2.context.get? "value" = some "0" ∧
      Unrolled site.location unrolled.location site.location s.calls ended ended' := by
  intro it s value site unrolled
  have uses : it.Uses (Standard Console.generator Console.streams) := Console.interpreter_uses
  have reachable : s.Reachable :=
    .update (.set "next" "b") (.update (.set "value" "a") (.initial _))
  have outcome : (it.recorded.runNode 9 site.node s).map
      (fun ended => (ended.1.toOption, ended.2.context.get? "value")) = some (some (), some "0") := by
    decide +kernel
  obtain ⟨⟨result, s'⟩, ran, done⟩ := Option.map_eq_some_iff.1 outcome
  obtain ⟨ok, last⟩ := Prod.mk.inj done
  have runs : it.runs site.node s = some (result, s') :=
    (enough_eq_some (growing_runNode uses.orderly _)).2 ⟨9, ran⟩
  obtain ⟨-, unrolls⟩ := while_unrolls uses.orderly rfl default default [value] shift s
  have unwatched : it.Unwatched := fun _ _ _ => rfl
  have steady : ∀ first, it.Begins site s first → it.LeavesShut shift first.2 ∧
      ∀ next, it.Round [value] shift first next →
        next.1.length = 1 ∧ next.2.context.isStopped = false := by
    refine fun first _ => ⟨False.elim, fun next round => ?_⟩
    obtain ⟨s₂, -, goes_on, again⟩ := round.again
    obtain ⟨same, text, -, given⟩ := reads_reference again
    rw [Context.isInterrupted, decide_eq_false_iff_not, not_not] at goes_on
    rw [given, same, Context.isStopped, goes_on]
    exact ⟨rfl, rfl⟩
  have running : s.context.flow ≠ .leaving := by
    intro leaving
    cases leaving
  have alike := unrolls _ _ _ uses unwatched rfl rfl reachable.wellRedirected running default default
    default default default steady
  rcases ends_cases alike with ⟨none, -⟩ | ⟨ended, ended', left, right, unrolled⟩
  · cases runs.symm.trans none
  · cases runs.symm.trans left
    refine ⟨_, _, runs, right, ?_, last, unrolled⟩
    cases result with
    | ok _ => rfl
    | error _ => cases ok

/-- The forms differ where a body that takes its name from a variable finds the else-chain that the
round before has left open, where a later reading of the condition does not give one argument, and
where it stops the run: the loop goes on with what has been read, and behind the choice it is not
called. -/
theorem while_differs_from_choice :
    let it := Console.interpreter.withLimits ⟨0, 0, 0⟩
    let ends (source name : String) (s : State Console.Host) :=
      (it.run source s).map fun ended => (ended.1.isOk, ended.2.context.get? name)
    let both (before loop choice name : String) :=
      (it.run before ⟨.initial, Console.start [] 0⟩).map fun ready =>
        (ends loop name ready.2, ends choice name ready.2)
    both ("!def(t) \x7bglobal k n m; set k $(+ $k 1); set n $m; set m else; return $(< $k 3)\x7d; " ++
          "set k 0; set m \"if 0\"")
        "!while($(t)) !$^n set x b" "!if($(t)) \x7b!$^n set x b; !while($(t)) !$^n set x b\x7d" "x" =
      some (some (true, some "b"), some (true, none)) ∧
    both "set c 1; set d \"a b\""
        "!while($^c) \x7bset c $d; set d 0\x7d"
        "!if($^c) \x7b\x7bset c $d; set d 0\x7d; !while($^c) \x7bset c $d; set d 0\x7d\x7d" "c" =
      some (some (true, some "0"), some (false, some "a b")) ∧
    both ("!def(t) \x7bglobal k v; set k $(+ $k 1); !if($(> $k 1)) \x7bunset v; stop\x7d; return 1\x7d; " ++
          "set k 0; set v 1")
        "!while($(t)) set y $v" "!if($(t)) \x7bset y $v; !while($(t)) set y $v\x7d" "y" =
      some (some (false, some "1"), some (true, some "1")) := by
  intro it ends both
  refine ⟨?_, ?_, ?_⟩
  all_goals decide +kernel

end Interpreter

end Scriptlet
