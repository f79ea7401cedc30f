import Scriptlet.Proofs.Evaluation.Recording
import Scriptlet.Proofs.Scope.Stack

/-!
# What happens on the way out

A `return` sends execution to the end of a definition and a `stop` to the end of the run. The `Mode`
of a run says which way it is on, and a `Trail` which moments take it from one mode to another, seen
from a call in progress: after a `return` nothing happens until its definition has ended, and after a
`stop` nothing does but the steps of expansions that stand in words still to be evaluated, if the
`stop` was in an expansion.
-/

namespace Scriptlet

/-- The call hands a result over, if a handler serves it. -/
def ActiveCall.Returns (call : ActiveCall) : Prop :=
  call.kind = .command ∧ call.name = "return"

/-- The call ends the run, if a handler serves it. -/
def ActiveCall.Stops (call : ActiveCall) : Prop :=
  call.kind = .command ∧ call.name = "stop"

instance (call : ActiveCall) : Decidable call.Returns :=
  inferInstanceAs (Decidable (_ ∧ _))

instance (call : ActiveCall) : Decidable call.Stops :=
  inferInstanceAs (Decidable (_ ∧ _))

namespace Moment

/-- A statement or an expansion starts. -/
def IsStep (moment : Moment) : Prop :=
  ∃ location, moment.event = .step location

/-- A handler is called to end the run. -/
def Stops (moment : Moment) : Prop :=
  ∃ call, moment.event = .handler call ∧ call.Stops

/-- The result that a handler is called to hand to the call of a definition with this number. -/
def resultFor? (number : Nat) (moment : Moment) : Option String :=
  match moment.event with
  | .handler call =>
    if call.Returns ∧ 0 < number ∧ moment.context.scopes.current = number then
      some (Text.unwords call.args)
    else none
  | _ => none

/-- A result is handed to the innermost call of a definition, which is not the global frame. -/
lemma resultFor?_eq_some {moment : Moment} {number : Nat} {result : String}
    (h : moment.resultFor? number = some result) :
    (∃ call, moment.event = .handler call ∧ call.Returns ∧ result = Text.unwords call.args) ∧
      0 < number ∧ moment.context.scopes.current = number := by
  rw [resultFor?] at h
  split at h
  · rename_i call e
    split at h
    · rename_i handed
      cases h
      exact ⟨⟨call, e, handed.1, rfl⟩, handed.2⟩
    · cases h
  · cases h

/-- A step hands over no result. -/
lemma resultFor?_of_isStep {moment : Moment} (h : moment.IsStep) (number : Nat) :
    moment.resultFor? number = none := by
  obtain ⟨location, e⟩ := h
  rw [resultFor?, e]

/-- What stops the run hands over no result. -/
lemma resultFor?_of_stops {moment : Moment} (h : moment.Stops) (number : Nat) :
    moment.resultFor? number = none := by
  cases e : moment.resultFor? number with
  | none => rfl
  | some result =>
    obtain ⟨⟨call, handled, ⟨-, returns⟩, -⟩, -⟩ := resultFor?_eq_some e
    obtain ⟨other, stopped, -, stops⟩ := h
    cases handled.symm.trans stopped
    exact absurd (returns.symm.trans stops) (by decide)

/-- A moment hands over one result at most. -/
lemma resultFor?_of_ne {moment : Moment} {number other : Nat} {result : String}
    (h : moment.resultFor? number = some result) (ne : other ≠ number) :
    moment.resultFor? other = none := by
  cases e : moment.resultFor? other with
  | none => rfl
  | some _ =>
    obtain ⟨-, -, current⟩ := resultFor?_eq_some h
    obtain ⟨-, -, current'⟩ := resultFor?_eq_some e
    exact absurd (current'.symm.trans current) ne

end Moment

/-- Which way a run is on, seen from a call in progress. -/
inductive Mode where
  | running
  /-- To the end of the innermost call of a definition, which was handed the result. -/
  | leaving (result : String)
  /-- To the end of the run, with nothing left to evaluate. -/
  | halting
  /-- To the end of the run, out of an expansion in a word, the rest of which is evaluated still. -/
  | fading
  deriving DecidableEq

namespace Mode

/-- Where execution goes. -/
def flow : Mode → Flow
  | running => .next
  | leaving _ => .leaving
  | halting | fading => .stopped

/-- Words are evaluated in this mode. -/
def Reading (mode : Mode) : Prop :=
  mode = running ∨ mode = fading

/-- The mode when the call is left again, which may be a call of a definition: its end is the end of
the way out of it, and around an expansion there are words to evaluate. -/
def outside (call : ActiveCall) (isDefinition : Bool) : Mode → Mode
  | running => running
  | leaving result => if isDefinition then running else leaving result
  | halting => if call.kind = .expansion then fading else halting
  | fading => fading

/-- Where execution goes when the call is left. -/
lemma flow_outside (mode : Mode) (call : ActiveCall) (isDefinition : Bool) :
    (mode.outside call isDefinition).flow =
      if mode.flow = .leaving ∧ isDefinition then .next else mode.flow := by
  cases mode with
  | running => rfl
  | leaving result => cases isDefinition <;> rfl
  | halting =>
    rw [outside]
    split <;> rfl
  | fading => rfl

/-- Around an expansion that a script defined, words are evaluated. -/
lemma reading_outside (mode : Mode) {call : ActiveCall} (expansion : call.kind = .expansion) :
    (mode.outside call true).Reading := by
  cases mode with
  | running => exact .inl rfl
  | leaving result => exact .inl rfl
  | halting =>
    rw [outside, if_pos expansion]
    exact .inr rfl
  | fading => exact .inr rfl

/-- The results that are handed to the call with this number, seen from a call with the number
`current` of the innermost definition. -/
def resultsFor (current number : Nat) : Mode → List String
  | leaving result => if number = current then [result] else []
  | _ => []

end Mode

/-- A moment takes a run from one mode to another, seen from within these calls, the innermost call
of a definition having the number `current`. -/
inductive Pass (calls : List ActiveCall) (current : Nat) (moment : Moment) : Mode → Mode → Prop
  | onward :
    moment.context.flow = .next →
    ¬ moment.Stops →
    (∀ number ≤ calls.length, moment.resultFor? number = none) →
    Pass calls current moment .running .running
  | left {result : String} :
    moment.context.flow = .next →
    moment.resultFor? current = some result →
    Pass calls current moment .running (.leaving result)
  | halted :
    moment.context.flow = .next →
    moment.Stops →
    (∀ call ∈ moment.context.scopes.backtrace.drop calls.length, call.kind ≠ .expansion) →
    Pass calls current moment .running .halting
  | faded {call : ActiveCall} :
    moment.context.flow = .next →
    moment.Stops →
    call ∈ moment.context.scopes.backtrace.drop calls.length →
    call.kind = .expansion →
    Pass calls current moment .running .fading
  | late :
    moment.context.flow = .stopped →
    moment.IsStep →
    Pass calls current moment .fading .fading

/-- Moments within these calls take a run from one mode to another. -/
inductive Trail (calls : List ActiveCall) (current : Nat) : Mode → List Moment → Mode → Prop
  | nil (mode : Mode) : Trail calls current mode [] mode
  | cons {first next last : Mode} {moment : Moment} {rest : List Moment} :
    calls <+: moment.context.scopes.backtrace →
    Pass calls current moment first next →
    Trail calls current next rest last →
    Trail calls current first (moment :: rest) last

/-- In the frame of one more call, which may be a call of a definition, a moment does what it does
outside, but that it may hand a result to that call. -/
lemma Pass.outside {calls : List ActiveCall} {call : ActiveCall} {current : Nat}
    {isDefinition : Bool} {moment : Moment} {first next : Mode}
    (within : calls ++ [call] <+: moment.context.scopes.backtrace)
    (h : Pass (calls ++ [call]) (if isDefinition then calls.length + 1 else current) moment first
      next) :
    Pass calls current moment (first.outside call isDefinition) (next.outside call isDefinition) := by
  have inner : moment.context.scopes.backtrace.drop calls.length =
      call :: moment.context.scopes.backtrace.drop (calls ++ [call]).length := by
    obtain ⟨rest, e⟩ := within
    rw [← e, List.drop_left, List.append_assoc, List.drop_left]
    rfl
  cases h with
  | onward flow goes_on keeps =>
    refine .onward flow goes_on fun number le => keeps number (Nat.le_trans le ?_)
    rw [List.length_append]
    exact Nat.le_add_right _ _
  | @left result flow handed =>
    cases isDefinition with
    | false => exact .left flow handed
    | true =>
      -- the result is for the call itself, so seen from outside nothing is handed over
      refine .onward flow ?_ fun number le => ?_
      · intro stops
        rw [Moment.resultFor?_of_stops stops] at handed
        cases handed
      · exact Moment.resultFor?_of_ne handed (Nat.ne_of_lt (Nat.lt_succ_of_le le))
  | halted flow stops none_inside =>
    by_cases expansion : call.kind = .expansion
    · simp only [Mode.outside, expansion, if_true]
      refine .faded flow stops ?_ expansion
      rw [inner]
      exact List.mem_cons_self
    · simp only [Mode.outside, expansion, if_false]
      refine .halted flow stops fun other mem => ?_
      rw [inner] at mem
      rcases List.mem_cons.1 mem with rfl | deeper
      · exact expansion
      · exact none_inside other deeper
  | faded flow stops mem expansion =>
    refine .faded flow stops ?_ expansion
    rw [inner]
    exact List.mem_cons_of_mem _ mem
  | late flow step => exact .late flow step

namespace Trail

variable {calls : List ActiveCall} {current : Nat} {first next last : Mode} {moment : Moment}
  {news : List Moment}

/-- A moment that passes in the calls around it is a trail. -/
lemma single (within : calls <+: moment.context.scopes.backtrace)
    (h : Pass calls current moment first last) : Trail calls current first [moment] last :=
  .cons within h (.nil last)

/-- A trail may go on where another ends. -/
lemma append {rest : List Moment} (h : Trail calls current first news next)
    (h' : Trail calls current next rest last) : Trail calls current first (news ++ rest) last := by
  induction h with
  | nil => exact h'
  | cons within pass _ ih => exact .cons within pass (ih h')

/-- Where a trail parts. -/
lemma split {rest : List Moment} (h : Trail calls current first (news ++ rest) last) :
    ∃ next, Trail calls current first news next ∧ Trail calls current next rest last := by
  induction news generalizing first with
  | nil => exact ⟨first, .nil first, h⟩
  | cons moment news ih =>
    cases h with
    | cons within pass later =>
      obtain ⟨next, before, after⟩ := ih later
      exact ⟨next, .cons within pass before, after⟩

/-- What happens in the frame of one more call, seen from outside. -/
lemma outside {call : ActiveCall} {isDefinition : Bool}
    (h : Trail (calls ++ [call]) (if isDefinition then calls.length + 1 else current) first news
      last) :
    Trail calls current (first.outside call isDefinition) news (last.outside call isDefinition) := by
  induction h with
  | nil mode => exact .nil _
  | cons within pass _ ih =>
    exact .cons ((List.prefix_append _ _).trans within) (pass.outside within) ih

/-- Nothing happens on the way out of a definition. -/
lemma eq_nil_of_leaving {result : String} (h : Trail calls current (.leaving result) news last) :
    news = [] ∧ last = .leaving result := by
  cases h with
  | nil => exact ⟨rfl, rfl⟩
  | cons _ pass _ => cases pass

/-- After a stop is under way nothing more happens. -/
lemma eq_nil_of_halting (h : Trail calls current .halting news last) :
    news = [] ∧ last = .halting := by
  cases h with
  | nil => exact ⟨rfl, rfl⟩
  | cons _ pass _ => cases pass

/-- Only steps are taken while the rest of a word is evaluated. -/
lemma isStep_of_fading (h : Trail calls current .fading news last) :
    last = .fading ∧ ∀ moment ∈ news, moment.IsStep := by
  generalize e : Mode.fading = first at h
  induction h with
  | nil =>
    subst e
    exact ⟨rfl, fun _ mem => nomatch mem⟩
  | cons _ pass _ ih =>
    subst e
    cases pass with
    | late _ step =>
      obtain ⟨faded, steps⟩ := ih rfl
      exact ⟨faded, List.forall_mem_cons.2 ⟨step, steps⟩⟩

/-- At no moment is a run on its way out of a definition. -/
lemma flow_ne_leaving (h : Trail calls current first news last) :
    ∀ moment ∈ news, moment.context.flow ≠ .leaving := by
  induction h with
  | nil => exact fun _ mem => nomatch mem
  | cons _ pass _ ih =>
    refine List.forall_mem_cons.2 ⟨?_, ih⟩
    cases pass with
    | onward flow _ _ | left flow _ | halted flow _ _ | faded flow _ _ _ | late flow _ =>
      rw [flow]
      decide

/-- The results that were handed to a call in progress are those that the mode tells of. -/
lemma filterMap_resultFor? (h : Trail calls current first news last) {number : Nat}
    (le : number ≤ calls.length) (running : first = .running) :
    news.filterMap (Moment.resultFor? number) = last.resultsFor current number := by
  induction h with
  | nil =>
    rw [running]
    rfl
  | @cons _ _ _ moment rest _ pass later ih =>
    cases pass with
    | onward _ _ keeps =>
      rw [List.filterMap_cons_none (keeps number le)]
      exact ih rfl
    | @left result _ handed =>
      obtain ⟨rfl, rfl⟩ := later.eq_nil_of_leaving
      rw [Mode.resultsFor]
      split
      · rename_i same
        rw [← same] at handed
        exact List.filterMap_cons_some handed
      · rename_i other
        exact List.filterMap_cons_none (Moment.resultFor?_of_ne handed other)
    | halted _ stops _ =>
      obtain ⟨rfl, rfl⟩ := later.eq_nil_of_halting
      exact List.filterMap_cons_none (Moment.resultFor?_of_stops stops number)
    | faded _ stops _ _ =>
      obtain ⟨rfl, steps⟩ := later.isStep_of_fading
      rw [List.filterMap_cons_none (Moment.resultFor?_of_stops stops number)]
      exact List.filterMap_eq_nil_iff.2 fun m mem => Moment.resultFor?_of_isStep (steps m mem) number
    | late _ _ => cases running

/-- The last moment before the way out of a definition is the `return`, the only one for it. -/
lemma exists_last_of_leaving {result : String} (le : current ≤ calls.length)
    (h : Trail calls current .running news (.leaving result)) :
    ∃ earlier moment, news = earlier ++ [moment] ∧ moment.resultFor? current = some result ∧
      ∀ moment ∈ earlier, moment.resultFor? current = none := by
  generalize running : Mode.running = first at h
  generalize left : Mode.leaving result = last at h
  induction h with
  | nil =>
    subst running
    cases left
  | @cons _ _ _ moment rest _ pass later ih =>
    subst running
    cases pass with
    | onward _ _ keeps =>
      obtain ⟨earlier, last, rfl, handed, before⟩ := ih rfl left
      exact ⟨moment :: earlier, last, rfl, handed,
        List.forall_mem_cons.2 ⟨keeps current le, before⟩⟩
    | left _ handed =>
      obtain ⟨rfl, rfl⟩ := later.eq_nil_of_leaving
      cases left
      exact ⟨[], moment, rfl, handed, List.forall_mem_nil _⟩
    | halted _ _ _ =>
      obtain ⟨-, rfl⟩ := later.eq_nil_of_halting
      cases left
    | faded _ _ _ _ =>
      obtain ⟨rfl, -⟩ := later.isStep_of_fading
      cases left

/-- Behind a `stop` only steps are taken, and none if the `stop` is in no expansion. -/
lemma behind_stop {earlier later : List Moment}
    (h : Trail calls current .running (earlier ++ moment :: later) last) (stops : moment.Stops) :
    last.flow = .stopped ∧ (∀ moment ∈ later, moment.IsStep) ∧
      ((∀ call ∈ moment.context.scopes.backtrace.drop calls.length, call.kind ≠ .expansion) →
        last = .halting ∧ later = []) := by
  obtain ⟨next, before, after⟩ := h.split
  cases after with
  | cons _ pass rest =>
    cases pass with
    | onward _ goes_on _ => exact absurd stops goes_on
    | left _ handed =>
      rw [Moment.resultFor?_of_stops stops] at handed
      cases handed
    | halted _ _ _ =>
      obtain ⟨rfl, rfl⟩ := rest.eq_nil_of_halting
      exact ⟨rfl, List.forall_mem_nil _, fun _ => ⟨rfl, rfl⟩⟩
    | faded _ _ mem expansion =>
      obtain ⟨rfl, steps⟩ := rest.isStep_of_fading
      exact ⟨rfl, steps, fun none_inside => absurd expansion (none_inside _ mem)⟩
    | late _ step =>
      obtain ⟨location, e⟩ := step
      obtain ⟨call, handled, -⟩ := stops
      cases e.symm.trans handled

end Trail

end Scriptlet
