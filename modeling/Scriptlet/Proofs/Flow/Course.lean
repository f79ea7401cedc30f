import Scriptlet.Proofs.Evaluation.Changes
import Scriptlet.Proofs.Flow.Trail

/-!
# The course of an evaluation

An evaluation that starts in one mode ends in another (`Goes`): the calls in progress are the same,
what happened in between is a trail, no result was handed to a call that the mode does not tell of,
and there are no errors on the way out but of words that are evaluated still. `Carries` says so of
all courses of an evaluation; it is closed under everything that evaluations are put together with.
-/

namespace Scriptlet

variable {σ α β : Type} {ceiling : Nat}

namespace ScopeStack

/-- The results that were handed to the calls in progress, innermost first. -/
def results (s : ScopeStack) : List (Option String) :=
  s.toList.map Frame.result

/-- A change of a scope touches no result. -/
lemma results_modifyScope (s : ScopeStack) (number : Nat) (f : Scope → Scope) :
    (s.modifyScope number f).results = s.results :=
  map_modifyScope (fun _ _ => rfl) s number f

/-- Parameters touch no result. -/
lemma results_bindParams (definition : Definition) (args : List String) (s : ScopeStack) :
    (Interpreter.bindParams definition args s).results = s.results :=
  Interpreter.bindParams_induction (motive := fun t => t.results = s.results)
    (fun _ _ _ h => (results_modifyScope _ _ _).trans h) rfl definition args

/-- A result is handed to the innermost call of a definition. -/
lemma results_setResult {s s' : ScopeStack} {value : String} (h : s.setResult? value = some s') :
    s'.results = s.results.set (s.depth - s.current) (some value) := by
  obtain ⟨above, found, rfl⟩ := Option.map_eq_some_iff.1 h
  rw [definitionAbove?_eq] at found
  split at found
  · cases found
    rw [results, toList_modifyAbove]
    apply List.ext_getElem?
    intro i
    simp only [List.getElem?_map, List.getElem?_modify, List.getElem?_set, results, List.length_map]
    by_cases e : s.depth - s.current = i
    · subst e
      have lt : s.depth - s.current < s.toList.length := Nat.lt_succ_of_le (Nat.sub_le _ _)
      rw [List.getElem?_eq_getElem lt, if_pos rfl, if_pos lt]
      simp
    · simp [e]
  · cases found

end ScopeStack

/-- Whether a change sends execution on its way out. -/
def Update.Ends : Update → Prop
  | leave _ | stop => True
  | _ => False

namespace Context

variable {change : Update}

/-- Only changes that end something change where execution goes. -/
lemma flow_update (c : Context) (stays : ¬ change.Ends) : (c.update change).flow = c.flow := by
  cases change with
  | leave result => exact absurd trivial stays
  | stop => exact absurd trivial stays
  | _ => rfl

/-- No change but a `return` hands a result over. -/
lemma results_update (c : Context) (stays : ¬ change.Ends) :
    (c.update change).scopes.results = c.scopes.results := by
  refine c.map_update (fun _ _ => rfl) change (fun value leaves => ?_) fun _ _ _ => rfl
  subst leaves
  exact absurd trivial stays

end Context

/-- What words that are evaluated after a `stop` can still fail with, under a ceiling for steps. -/
def Fault.Late (ceiling : Nat) : Fault → Prop
  | noVariable _ | emptyCallName _ => True
  | stepCeiling limit => limit = ceiling ∧ 0 < ceiling
  | _ => False

namespace Mode

/-- The results of the calls in progress when this mode is reached. -/
def deliver (s : ScopeStack) : Mode → List (Option String)
  | leaving result => s.results.set (s.depth - s.current) (some result)
  | _ => s.results

/-- The result with which a definition is left. -/
def result? : Mode → Option String
  | leaving result => some result
  | _ => none

/-- The mode tells of one result at most, that with which a definition is left. -/
lemma resultsFor_self (mode : Mode) (number : Nat) :
    mode.resultsFor number number = mode.result?.toList := by
  cases mode with
  | leaving result => exact if_pos rfl
  | _ => rfl

/-- In this mode an evaluation can end so. -/
def Permits (ceiling : Nat) (mode : Mode) : Except RuntimeError α → Prop
  | .ok _ => True
  | .error error => mode = running ∨ mode = fading ∧ error.fault.Late ceiling

/-- Where an error is permitted, arguments are read. -/
lemma Permits.reading {mode : Mode} {error : RuntimeError}
    (h : mode.Permits ceiling (.error error : Except RuntimeError α)) : mode.Reading :=
  h.imp_right And.left

/-- A call that is left keeps the fault. -/
lemma Permits.outside {mode : Mode} {error : RuntimeError}
    (h : mode.Permits ceiling (.error error : Except RuntimeError α)) (call : ActiveCall)
    (isDefinition : Bool) (location : Location) (backtrace : List ActiveCall) :
    (mode.outside call isDefinition).Permits ceiling
      (.error (error.locate location backtrace) : Except RuntimeError β) := by
  have fault : (error.locate location backtrace).fault = error.fault := by
    rw [RuntimeError.locate]
    split <;> rfl
  rcases h with rfl | ⟨rfl, late⟩
  · exact .inl rfl
  · exact .inr ⟨rfl, fault ▸ late⟩

end Mode

namespace Evaluation

/-- The state is that of a run in this mode. -/
structure At (mode : Mode) (s : State (Recorded σ)) : Prop where
  flow : s.context.flow = mode.flow
  results : s.context.scopes.results = mode.deliver s.context.scopes

/-- A course of an evaluation from one mode to another. -/
structure Goes (ceiling : Nat) (s : State (Recorded σ)) (first : Mode)
    (result : Except RuntimeError α) (s' : State (Recorded σ)) (last : Mode) : Prop where
  shape : s'.context.scopes.shape = s.context.scopes.shape
  flow : s'.context.flow = last.flow
  happened : ∃ news, s'.host.moments = s.host.moments ++ news ∧
    Trail s.context.scopes.backtrace s.context.scopes.current first news last
  results : s'.context.scopes.results = last.deliver s.context.scopes
  permits : last.Permits ceiling result

/-- Where execution goes on, it is running. -/
lemma At.running {s : State (Recorded σ)} (flow : s.context.flow = .next) : At .running s :=
  ⟨flow, rfl⟩

namespace Goes

variable {s s₁ s₂ : State (Recorded σ)} {first next last : Mode}

/-- Where nothing happens, the mode is still the same. -/
lemma refl (h : At first s) {result : Except RuntimeError α} (permits : first.Permits ceiling result) :
    Goes ceiling s first result s first :=
  ⟨rfl, h.flow, ⟨[], (List.append_nil _).symm, .nil first⟩, h.results, permits⟩

/-- A course ends in its last mode. -/
lemma at_end {result : Except RuntimeError α} (h : Goes ceiling s first result s₁ last) :
    At last s₁ := by
  refine ⟨h.flow, ?_⟩
  cases last with
  | leaving value =>
    have results := h.results
    rw [Mode.deliver] at results ⊢
    rw [results, ScopeStack.depth_eq_of_shape h.shape, ScopeStack.current_eq_of_shape h.shape,
      List.set_set]
  | _ => rfl

/-- One course after another. -/
lemma trans {value : α} {result : Except RuntimeError β}
    (h : Goes ceiling s first (.ok value) s₁ next) (h' : Goes ceiling s₁ next result s₂ last) :
    Goes ceiling s first result s₂ last := by
  obtain ⟨news, moments, trail⟩ := h.happened
  obtain ⟨rest, moments', trail'⟩ := h'.happened
  have depth := ScopeStack.depth_eq_of_shape h.shape
  have current := ScopeStack.current_eq_of_shape h.shape
  refine ⟨h'.shape.trans h.shape, h'.flow, ⟨news ++ rest, ?_, ?_⟩, ?_, h'.permits⟩
  · rw [moments', moments, List.append_assoc]
  · rw [ScopeStack.backtrace_eq_of_shape h.shape, current] at trail'
    exact trail.append trail'
  · rw [h'.results]
    cases next with
    | running =>
      have same : s₁.context.scopes.results = s.context.scopes.results := h.results
      cases last <;> simp only [Mode.deliver, same, depth, current]
    | leaving handed =>
      -- a result is handed over once
      obtain ⟨-, rfl⟩ := trail'.eq_nil_of_leaving
      rw [← h'.results, ← h.results]
      exact h'.results.trans (h.at_end.results).symm
    | halting =>
      obtain ⟨-, rfl⟩ := trail'.eq_nil_of_halting
      exact h.results
    | fading =>
      obtain ⟨rfl, -⟩ := trail'.isStep_of_fading
      exact h.results

/-- The frame of a call is left, in a state that may have come out of a definition meanwhile. -/
lemma leave {call : ActiveCall} {isDefinition : Bool} {inner : Except RuntimeError α}
    {result : Except RuntimeError β}
    (h : Goes ceiling (withScopes (·.push (.ofCall call isDefinition)) s) .running inner s₁ last)
    (shape : s₂.context.scopes.shape = s₁.context.scopes.shape)
    (moments : s₂.host.moments = s₁.host.moments)
    (below : s₂.context.scopes.results.tail = s₁.context.scopes.results.tail)
    (flow : s₂.context.flow = (last.outside call isDefinition).flow)
    (permits : (last.outside call isDefinition).Permits ceiling result) :
    Goes ceiling s .running result (withScopes (·.pop) s₂) (last.outside call isDefinition) := by
  obtain ⟨news, happened, trail⟩ := h.happened
  have entered := h.shape
  have inside := h.results
  change Trail (s.context.scopes.push _).backtrace (s.context.scopes.push _).current _ _ _ at trail
  change _ = (s.context.scopes.push _).shape at entered
  change _ = last.deliver (s.context.scopes.push _) at inside
  rw [ScopeStack.backtrace_push, ScopeStack.current_push] at trail
  refine ⟨ScopeStack.shape_pop (shape.trans entered), flow, ⟨news, ?_, ?_⟩, ?_, permits⟩
  · exact moments.trans happened
  · rw [← ScopeStack.length_backtrace] at trail
    exact trail.outside
  · have popped : (s₂.context.scopes.pop).results = s₂.context.scopes.results.tail := by
      have depth := ScopeStack.depth_eq_of_shape (shape.trans entered)
      generalize s₂.context.scopes = t at depth
      rcases t with ⟨top, _ | ⟨f, rest⟩⟩
      · cases depth
      · rfl
    show (s₂.context.scopes.pop).results = _
    rw [popped, below, inside]
    cases last with
    | leaving handed =>
      rw [Mode.deliver, ScopeStack.current_push, ScopeStack.depth_push]
      cases isDefinition with
      | true =>
        simp only [if_true, Nat.sub_self]
        rfl
      | false =>
        have le := s.context.scopes.current_le_depth
        simp only [Bool.false_eq_true, if_false, Nat.succ_sub le]
        rfl
    | halting =>
      simp only [Mode.outside]
      split <;> rfl
    | _ => rfl

/-- What happened in the frame of a definition handed it the result that it is left with. -/
lemma inside {call : ActiveCall} {result : Except RuntimeError α}
    (h : Goes ceiling (withScopes (·.push (.ofCall call true)) s) .running result s₁ last) :
    (∃ news, s₁.host.moments = s.host.moments ++ news ∧
      news.filterMap (Moment.resultFor? (s.context.scopes.depth + 1)) = last.result?.toList) ∧
      s₁.context.scopes.top.result = last.result? := by
  have results := h.results
  change _ = last.deliver (s.context.scopes.push _) at results
  refine ⟨?_, ?_⟩
  · obtain ⟨news, moments, trail⟩ := h.happened
    change Trail (s.context.scopes.push _).backtrace (s.context.scopes.push _).current _ _ _ at trail
    rw [ScopeStack.backtrace_push, ScopeStack.current_push, if_pos rfl] at trail
    have le : s.context.scopes.depth + 1 ≤ (s.context.scopes.backtrace ++ [call]).length := by
      rw [List.length_append, ScopeStack.length_backtrace]
      exact Nat.le_refl _
    have handed := trail.filterMap_resultFor? le rfl
    exact ⟨news, moments, handed.trans (last.resultsFor_self _)⟩
  · have handed : s₁.context.scopes.results.head? = some last.result? := by
      rw [results]
      cases last with
      | leaving value =>
        rw [Mode.deliver, ScopeStack.current_push, ScopeStack.depth_push, if_pos rfl, Nat.sub_self]
        rfl
      | _ => rfl
    exact Option.some.inj handed

end Goes

/-- From a state in the first mode, the evaluation goes on to one of these modes. -/
def Carries (ceiling : Nat) (first : Mode) (ends : Mode → Prop) (x : Evaluation (Recorded σ) α) :
    Prop :=
  ∀ s, At first s → ∀ result s', x s = some (result, s') →
    ∃ last, ends last ∧ Goes ceiling s first result s' last

namespace Carries

variable {first : Mode} {ends ends' : Mode → Prop} {x : Evaluation (Recorded σ) α}

/-- Less may be said of the last mode. -/
lemma mono (imp : ∀ mode, ends mode → ends' mode) (h : Carries ceiling first ends x) :
    Carries ceiling first ends' x := by
  intro s start result s' e
  obtain ⟨last, ended, goes⟩ := h s start result s' e
  exact ⟨last, imp last ended, goes⟩

/-- A value leaves the mode as it is. -/
lemma pure (value : α) (now : ends first) :
    Carries (σ := σ) ceiling first ends (Pure.pure value) := by
  intro s start result s' e
  cases e
  exact ⟨first, now, .refl start trivial⟩

/-- An error while nothing is on its way out. -/
lemma raise (error : RuntimeError) (now : ends .running) :
    Carries (σ := σ) (α := α) ceiling .running ends (Evaluation.raise error) := by
  intro s start result s' e
  cases e
  exact ⟨.running, now, .refl start (.inl rfl)⟩

/-- What goes on with a value may start in every mode that can be reached; an error ends in a mode in
which words are evaluated. -/
lemma bind {f : α → Evaluation (Recorded σ) β}
    (reading : ∀ mode, ends mode → mode.Reading → ends' mode)
    (hx : Carries ceiling first ends x)
    (hf : ∀ value mode, ends mode → Carries ceiling mode ends' (f value)) :
    Carries ceiling first ends' (x >>= f) := by
  intro s start result s' e
  rcases bind_cases e with ⟨value, s₁, ran, rest⟩ | ⟨error, failed, rfl⟩
  · obtain ⟨next, reached, goes⟩ := hx _ start _ _ ran
    obtain ⟨last, ended, goes'⟩ := hf value next reached _ goes.at_end _ _ rest
    exact ⟨last, ended, goes.trans goes'⟩
  · obtain ⟨last, ended, goes⟩ := hx _ start _ _ failed
    exact ⟨last, reading last ended goes.permits.reading,
      ⟨goes.shape, goes.flow, goes.happened, goes.results, goes.permits⟩⟩

/-- What looks at the context knows where execution goes. -/
lemma context {f : Context → Evaluation (Recorded σ) β}
    (hf : ∀ c, c.flow = first.flow → Carries ceiling first ends (f c)) :
    Carries ceiling first ends (Evaluation.context >>= f) :=
  fun s start => hf s.context start.flow s start

/-- A fault at a place is an error like any other. -/
lemma failAt (location : Location) {fault : Fault} (reading : first.Reading)
    (late : first = .fading → fault.Late ceiling) (now : ends first) :
    Carries (σ := σ) (α := α) ceiling first ends (Evaluation.failAt location fault) := by
  intro s start result s' e
  cases e
  refine ⟨first, now, .refl start ?_⟩
  rcases reading with rfl | rfl
  · exact .inl rfl
  · exact .inr ⟨rfl, late rfl⟩

/-- A change that neither sends execution anywhere nor enters or leaves calls. -/
lemma modify {change : Context → Context} (now : ends first)
    (shape : ∀ c, (change c).scopes.shape = c.scopes.shape)
    (flow : ∀ c, (change c).flow = c.flow)
    (results : ∀ c, (change c).scopes.results = c.scopes.results) :
    Carries (σ := σ) ceiling first ends (Evaluation.modify change) := by
  intro s start result s' e
  cases e
  exact ⟨first, now, shape _, (flow _).trans start.flow, ⟨[], (List.append_nil _).symm, .nil first⟩,
    (results _).trans start.results, trivial⟩

/-- A change that ends nothing leaves the mode as it is. -/
lemma update {change : Update} (now : ends first) (stays : ¬ change.Ends) :
    Carries (σ := σ) ceiling first ends (Evaluation.modify (·.update change)) :=
  modify now (·.shape_update change) (·.flow_update stays) (·.results_update stays)

/-- An event that neither hands over a result nor ends the run. -/
lemma notify (it : Interpreter σ) {event : Event} (reading : first.Reading) (now : ends first)
    (harmless : ∀ c, ¬ Moment.Stops ⟨event, c⟩ ∧ ∀ number, Moment.resultFor? number ⟨event, c⟩ = none)
    (step : first = .fading → ∃ location, event = .step location) :
    Carries ceiling first ends (Evaluation.notify it.recorded.observe event) := by
  intro s start result s' e
  cases e
  refine ⟨first, now, rfl, start.flow, ⟨[⟨event, s.context⟩], rfl, ?_⟩, start.results, trivial⟩
  refine .single (List.prefix_refl _) ?_
  rcases reading with rfl | rfl
  · exact .onward start.flow (harmless _).1 fun number _ => (harmless _).2 number
  · exact .late start.flow (step rfl)

/-- A call is left in the mode in which its frame is, seen from outside. -/
lemma inFrame (call : ActiveCall) (h : Carries ceiling .running ends x) :
    Carries ceiling .running (fun last => ∃ inner, ends inner ∧ last = inner.outside call false)
      (inFrame (.ofCall call false) x) := by
  intro s start result s' e
  obtain ⟨inner, s₁, ran, rfl, outcome⟩ := inFrame_cases e
  have entered : At .running (withScopes (·.push (.ofCall call false)) s) := .running start.flow
  obtain ⟨last, ended, goes⟩ := h _ entered _ _ ran
  have flow : s₁.context.flow = (last.outside call false).flow := by
    rw [goes.flow, Mode.flow_outside, if_neg (fun left => nomatch left.2)]
  refine ⟨last.outside call false, ⟨last, ended, rfl⟩, goes.leave rfl rfl rfl flow ?_⟩
  rcases outcome with ⟨value, rfl, rfl⟩ | ⟨error, rfl, rfl⟩
  · trivial
  · exact goes.permits.outside call false _ _

end Carries

/-- The first of two evaluations begins and ends where words are evaluated. -/
def Reads (ceiling : Nat) : Relation (Recorded σ) (Recorded σ) := fun _ x _ =>
  ∀ first : Mode, first.Reading → Carries ceiling first Mode.Reading x

/-- Reading in every mode is handed on through the parts of an evaluation. -/
lemma Reads.lockstep : Relation.Lockstep (Reads (σ := σ) ceiling) where
  pure value _ reading := .pure value reading
  bind hx hf first reading :=
    (hx first reading).bind (fun _ reached _ => reached) fun value mode reached => hf value mode reached
  context hf first reading := .context fun c _ => hf c c (.refl c) first reading
  noVariable location _ _ reading := .failAt location reading (fun _ => trivial) reading

end Evaluation

end Scriptlet
