import Scriptlet.Interpreter.Hosted
import Scriptlet.Proofs.Limits.Ceiling

/-!
# Ceilings only cut off

A run under tighter ceilings does step by step what the run under more generous ones does, until it
would go beyond one of them (`Follows`). Where it stops is where the other run goes on to a moment
that does not fit, because a step is told of after it was counted and a call after its frame was
entered.
-/

namespace Scriptlet

variable {σ α β γ : Type} [RandomSource γ] {limits : Limits}

/-- The ceilings are no lower than so many steps and calls in progress. -/
structure Limits.Allow (limits : Limits) (steps depth : Nat) : Prop where
  steps : limits.maxSteps = 0 ∨ steps ≤ limits.maxSteps
  depth : limits.maxCallDepth = 0 ∨ depth ≤ limits.maxCallDepth

/-- The context is within the ceilings. -/
abbrev Context.Fits (limits : Limits) (c : Context) : Prop :=
  limits.Allow c.steps c.scopes.depth

namespace State

/-- The state is within the ceilings, and so is all that led to it. -/
structure Fits (limits : Limits) (s : State (Recorded σ)) : Prop where
  now : s.context.Fits limits
  always : ∀ moment ∈ s.host.moments, moment.context.Fits limits

/-- Something that led to the state is beyond the ceilings. -/
def Misfits (limits : Limits) (s : State (Recorded σ)) : Prop :=
  ∃ moment ∈ s.host.moments, ¬ moment.context.Fits limits

/-- No step was taken back. -/
def Counted (s : State (Recorded σ)) : Prop :=
  ∀ moment ∈ s.host.moments, moment.context.steps ≤ s.context.steps

/-- One state leads to the other, in the same frame. -/
structure Grows (s s' : State (Recorded σ)) : Prop where
  moments : s.host.moments <+: s'.host.moments
  depth : s'.context.scopes.depth = s.context.scopes.depth
  counted : s.Counted → s'.Counted

/-- A state grows to itself. -/
lemma Grows.refl (s : State (Recorded σ)) : s.Grows s :=
  ⟨List.prefix_rfl, rfl, id⟩

/-- Growth is handed on. -/
lemma Grows.trans {s s' s'' : State (Recorded σ)} (h : s.Grows s') (h' : s'.Grows s'') :
    s.Grows s'' :=
  ⟨h.moments.trans h'.moments, h'.depth.trans h.depth, h'.counted ∘ h.counted⟩

/-- What has happened stays beyond the ceilings. -/
lemma Misfits.mono {s s' : State (Recorded σ)} (h : s.Misfits limits)
    (moments : s.host.moments <+: s'.host.moments) : s'.Misfits limits := by
  obtain ⟨moment, mem, beyond⟩ := h
  exact ⟨moment, moments.subset mem, beyond⟩

/-- What grows in a frame has grown behind it. -/
lemma Grows.inFrame {s s' : State (Recorded σ)} {frame : Frame}
    (h : (Evaluation.withScopes (·.push frame) s).Grows s') :
    s.Grows (Evaluation.withScopes (·.pop) s') where
  moments := h.moments
  depth := by
    show s'.context.scopes.pop.depth = _
    rw [ScopeStack.depth_pop, h.depth]
    rfl
  counted := h.counted

/-- Something happens. -/
lemma grows_note (it : Interpreter σ) (event : Event) (s : State (Recorded σ)) :
    s.Grows (it.note event s) where
  moments := List.prefix_append _ _
  depth := rfl
  counted h moment mem := by
    rcases List.mem_append.1 mem with before | now
    · exact h moment before
    · obtain rfl := List.mem_singleton.1 now
      exact Nat.le_refl _

/-- To be told of something keeps within the ceilings. -/
lemma Fits.note {s : State (Recorded σ)} (h : s.Fits limits) (it : Interpreter σ) (event : Event) :
    (it.note event s).Fits limits where
  now := h.now
  always moment mem := by
    rcases List.mem_append.1 mem with before | now
    · exact h.always moment before
    · obtain rfl := List.mem_singleton.1 now
      exact h.now

end State

/-- An error that is placed is of the same kind. -/
@[simp]
lemma RuntimeError.kind_locate (error : RuntimeError) (location : Location)
    (backtrace : List ActiveCall) : (error.locate location backtrace).kind = error.kind := by
  rw [locate]
  split <;> rfl

namespace Evaluation

/-- Beside an evaluation that has led to a value and a state, another one either has done the same
and fits, or it has stopped on the way at a ceiling that does not fit. -/
inductive Trails (limits : Limits) (value : α) (s : State (Recorded σ)) :
    Option (Except RuntimeError α × State (Recorded σ)) → Prop
  | agrees :
    s.Fits limits →
    Trails limits value s (some (.ok value, s))
  | stops {error : RuntimeError} {stopped : State (Recorded σ)} :
    s.Misfits limits →
    error.kind = .resourceLimit →
    stopped.host.moments <+: s.host.moments →
    Trails limits value s (some (.error error, stopped))

/-- From this state, the second end trails the first. -/
def FollowsFrom (limits : Limits) (s : State (Recorded σ))
    (ended ended' : Option (Except RuntimeError α × State (Recorded σ))) : Prop :=
  ∀ value s', ended = some (.ok value, s') →
    s.Grows s' ∧ (s.Fits limits → Trails limits value s' ended')

/-- The second evaluation trails the first. -/
def Follows (limits : Limits) : Relation (Recorded σ) (Recorded σ) := fun _ x y =>
  ∀ s, FollowsFrom limits s (x s) (y s)

/-- A run that follows in both parts follows. -/
lemma FollowsFrom.bind {x y : Evaluation (Recorded σ) α} {f g : α → Evaluation (Recorded σ) β}
    {s : State (Recorded σ)} (hx : FollowsFrom limits s (x s) (y s))
    (hf : ∀ value, Follows limits (f value) (g value)) :
    FollowsFrom limits s ((x >>= f) s) ((y >>= g) s) := by
  intro value s' h
  obtain ⟨first, s₁, hfirst, hrest⟩ := bind_ok h
  obtain ⟨grows, trails⟩ := hx first s₁ hfirst
  obtain ⟨grows', trails'⟩ := hf first s₁ value s' hrest
  refine ⟨grows.trans grows', fun fits => ?_⟩
  have followed := trails fits
  generalize e : y s = outcome at followed
  cases followed with
  | agrees fits' =>
    rw [bind_of_ok e]
    exact trails' fits'
  | stops misfits limit before =>
    rw [bind_of_error e]
    exact .stops (misfits.mono grows'.moments) limit (before.trans grows'.moments)

namespace Follows

/-- A value is followed by the same value. -/
lemma pure (value : α) : Follows (σ := σ) limits (Pure.pure value) (Pure.pure value) := by
  intro s _ s' h
  cases h
  exact ⟨.refl s, .agrees⟩

/-- Following is handed on through the parts of an evaluation. -/
lemma monadic : Relation.Monadic (Follows (σ := σ) limits) where
  pure := pure
  raise _ _ _ _ h := nomatch h
  bind hx hf s := (hx s).bind hf
  context hf s := hf s.context s

/-- After a look at the context only the rest must follow. -/
lemma context {f g : Context → Evaluation (Recorded σ) α}
    (h : ∀ s, FollowsFrom limits s (f s.context s) (g s.context s)) :
    Follows limits (Evaluation.context >>= f) (Evaluation.context >>= g) :=
  h

/-- A frame is entered that fits, and left again. -/
lemma inFrame {x y : Evaluation (Recorded σ) α} (h : Follows limits x y) (frame : Frame)
    (s : State (Recorded σ))
    (room : limits.maxCallDepth = 0 ∨ s.context.scopes.depth < limits.maxCallDepth) :
    FollowsFrom limits s (inFrame frame x s) (Evaluation.inFrame frame y s) := by
  intro value s' e
  obtain ⟨_, s₁, inner, rfl, ⟨_, rfl, same⟩ | ⟨_, rfl, failed⟩⟩ := inFrame_cases e
  · cases same
    obtain ⟨grows, trails⟩ := h _ _ _ inner
    refine ⟨grows.inFrame, fun fits => ?_⟩
    have entered : (withScopes (·.push frame) s).Fits limits :=
      ⟨⟨fits.now.steps, room⟩, fits.always⟩
    have followed := trails entered
    generalize e' : y (withScopes (·.push frame) s) = outcome at followed
    cases followed with
    | agrees fits' =>
      rw [inFrame_of_ok e']
      refine .agrees ⟨⟨fits'.now.steps, ?_⟩, fits'.always⟩
      rw [grows.inFrame.depth]
      exact fits.now.depth
    | stops misfits limit before =>
      rw [inFrame_of_error e']
      refine .stops misfits ?_ before
      rwa [RuntimeError.kind_locate]
  · cases failed

/-- A change of the context that takes no steps and stays in the call. -/
lemma modify {change : Context → Context} (steps : ∀ c, (change c).steps = c.steps)
    (depth : ∀ c, (change c).scopes.depth = c.scopes.depth) :
    Follows (σ := σ) limits (Evaluation.modify change) (Evaluation.modify change) := by
  intro s value s' e
  cases e
  refine ⟨⟨List.prefix_rfl, depth _, ?_⟩, fun fits => .agrees ⟨⟨?_, ?_⟩, fits.always⟩⟩
  · intro counted moment mem
    show _ ≤ (change s.context).steps
    rw [steps]
    exact counted moment mem
  · show _ ∨ (change s.context).steps ≤ _
    rw [steps]
    exact fits.now.steps
  · show _ ∨ (change s.context).scopes.depth ≤ _
    rw [depth]
    exact fits.now.depth

/-- Both runs are told of the same. -/
lemma notify (it : Interpreter σ) (event : Event) :
    Follows limits (Evaluation.notify it.recorded.observe event)
      (Evaluation.notify it.recorded.observe event) := by
  intro s value s' e
  cases e
  exact ⟨s.grows_note it event, fun fits => .agrees (fits.note it event)⟩

/-- An interpreter under other ceilings trails itself in the frames of calls. -/
lemma framed (limits : Limits) (it : Interpreter σ) (generous strict : Limits) :
    Relation.Framed (Follows limits) (Follows limits) (it.withLimits generous).recorded
      (it.withLimits strict).recorded where
  outside := monadic.toSequential
  inside := monadic.toSequential
  fail fault := monadic.raise (.ofFault fault)
  enter h := h
  notify := notify it
  passage h := modify h.steps h.depth

/-- Handlers can do nothing but trail themselves. -/
lemma acting (allowed : Update → Prop) : Relation.Acting (Follows (σ := σ) limits) allowed where
  inside := monadic
  update _ := modify (fun c => c.steps_update _) (fun c => c.depth_update _)
  read hf s := hf s.host.host s
  write host _ _ h s := by
    intro value s' e
    obtain ⟨grows, trails⟩ := h { s with host := { s.host with host := host } } value s' e
    exact ⟨⟨grows.moments, grows.depth, grows.counted⟩, fun fits => trails ⟨fits.now, fits.always⟩⟩
  starve _ _ _ _ h := nomatch h

end Follows

end Evaluation

open Evaluation

namespace Interpreter

variable {it : Interpreter σ} {generous strict : Limits}

variable {run run' : Node Token → Evaluation (Recorded σ) Unit}
  {expand expand' : Expand (Recorded σ)} {rounds rounds' : Nat} {site : CallSite}

/-- An interpreter without handlers, whose host counts the steps of all runs. -/
def counting : Interpreter Nat :=
  { Interpreter.empty with
    observe := fun event _ steps =>
      match event with
      | .step _ => steps + 1
      | _ => steps }

end Interpreter

end Scriptlet
