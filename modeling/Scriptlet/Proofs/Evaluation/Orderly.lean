import Scriptlet.Library.Slot
import Scriptlet.Proofs.Evaluation.Recording

/-!
# Orderly actions

An orderly action passes on every error of what it runs, makes allowed changes only, and does not
depend on how many rounds its loops can take, but that it gives up when they are used up, after
having run its body once in every round. A plain action is orderly and has no errors of its own but
faults; what is put together from plain actions is plain. `ofAction_rel` carries a relation between
evaluations through the actions of handlers.
-/

namespace Scriptlet

variable {σ α β : Type}

namespace Action

/-- Both actions are the same step by step, except that the first may be cut short: it may give up
after it has run the body `rounds` times. -/
inductive CutShort (allowed : Update → Prop) : (rounds : Nat) → Action σ α → Action σ α → Prop
  | done {rounds} (answer : α) : CutShort allowed rounds (.done answer) (.done answer)
  | raise {rounds} (error : RuntimeError) : CutShort allowed rounds (.raise error) (.raise error)
  | inspect {rounds f g} :
    (∀ c, CutShort allowed rounds (f c) (g c)) →
    CutShort allowed rounds (.inspect f) (.inspect g)
  | update {rounds a b} {change : Update} :
    allowed change →
    CutShort allowed rounds a b →
    CutShort allowed rounds (.update change a) (.update change b)
  | readHost {rounds f g} :
    (∀ h, CutShort allowed rounds (f h) (g h)) →
    CutShort allowed rounds (.readHost f) (.readHost g)
  | writeHost {rounds a b} (host : σ) :
    CutShort allowed rounds a b →
    CutShort allowed rounds (.writeHost host a) (.writeHost host b)
  | runBody {rounds f g} :
    (∀ error, f (some error) = .raise error) →
    (∀ error, g (some error) = .raise error) →
    CutShort allowed (rounds - 1) (f none) (g none) →
    CutShort allowed rounds (.runBody f) (.runBody g)
  | rereadArgs {rounds f g} :
    (∀ error, f (.error error) = .raise error) →
    (∀ error, g (.error error) = .raise error) →
    (∀ args, CutShort allowed rounds (f (.ok args)) (g (.ok args))) →
    CutShort allowed rounds (.rereadArgs f) (.rereadArgs g)
  | rounds {rounds f g} :
    (∀ m n, m ≤ n → CutShort allowed m (f m) (g n)) →
    CutShort allowed rounds (.rounds f) (.rounds g)
  | exhausted (b : Action σ α) : CutShort allowed 0 .exhausted b

/-- However many rounds it is given, the action is at worst cut short. -/
def Orderly (allowed : Update → Prop) (action : Action σ α) : Prop :=
  ∀ rounds, CutShort allowed rounds action action

variable {allowed : Update → Prop}

namespace CutShort

/-- More changes may be allowed. -/
lemma mono {allowed' : Update → Prop} (imp : ∀ change, allowed change → allowed' change) {n : Nat}
    {a b : Action σ α} (h : CutShort allowed n a b) : CutShort allowed' n a b := by
  induction h with
  | done answer => exact .done answer
  | raise error => exact .raise error
  | inspect _ ih => exact .inspect ih
  | update may _ ih => exact .update (imp _ may) ih
  | readHost _ ih => exact .readHost ih
  | writeHost host _ ih => exact .writeHost host ih
  | runBody hf hg _ ih => exact .runBody hf hg ih
  | rereadArgs hf hg _ ih => exact .rereadArgs hf hg ih
  | rounds _ ih => exact .rounds ih
  | exhausted b => exact .exhausted b

end CutShort

/-- More changes may be allowed. -/
lemma Orderly.mono {allowed' : Update → Prop} (imp : ∀ change, allowed change → allowed' change)
    {action : Action σ α} (h : action.Orderly allowed) : action.Orderly allowed' :=
  fun n => (h n).mono imp

/-- Both actions are the same step by step, but that the first may be cut short, and their own
errors are faults. -/
inductive PlainShort (allowed : Update → Prop) : (rounds : Nat) → Action σ α → Action σ α → Prop
  | done {rounds} (answer : α) : PlainShort allowed rounds (.done answer) (.done answer)
  | fail {rounds} (fault : Fault) : PlainShort allowed rounds (.fail fault) (.fail fault)
  | inspect {rounds f g} :
    (∀ c, PlainShort allowed rounds (f c) (g c)) →
    PlainShort allowed rounds (.inspect f) (.inspect g)
  | update {rounds a b} {change : Update} :
    allowed change →
    PlainShort allowed rounds a b →
    PlainShort allowed rounds (.update change a) (.update change b)
  | readHost {rounds f g} :
    (∀ h, PlainShort allowed rounds (f h) (g h)) →
    PlainShort allowed rounds (.readHost f) (.readHost g)
  | writeHost {rounds a b} (host : σ) :
    PlainShort allowed rounds a b →
    PlainShort allowed rounds (.writeHost host a) (.writeHost host b)
  | runBody {rounds f g} :
    (∀ error, f (some error) = .raise error) →
    (∀ error, g (some error) = .raise error) →
    PlainShort allowed (rounds - 1) (f none) (g none) →
    PlainShort allowed rounds (.runBody f) (.runBody g)
  | rereadArgs {rounds f g} :
    (∀ error, f (.error error) = .raise error) →
    (∀ error, g (.error error) = .raise error) →
    (∀ args, PlainShort allowed rounds (f (.ok args)) (g (.ok args))) →
    PlainShort allowed rounds (.rereadArgs f) (.rereadArgs g)
  | rounds {rounds f g} :
    (∀ m n, m ≤ n → PlainShort allowed m (f m) (g n)) →
    PlainShort allowed rounds (.rounds f) (.rounds g)
  | exhausted (b : Action σ α) : PlainShort allowed 0 .exhausted b

/-- The action is orderly, and its own errors are faults. -/
def Plain (allowed : Update → Prop) (action : Action σ α) : Prop :=
  ∀ rounds, PlainShort allowed rounds action action

namespace PlainShort

/-- Plain steps are steps. -/
lemma cutShort {n : Nat} {a b : Action σ α} (h : PlainShort allowed n a b) :
    CutShort allowed n a b := by
  induction h with
  | done answer => exact .done answer
  | fail fault => exact .raise (.ofFault fault)
  | inspect _ ih => exact .inspect ih
  | update may _ ih => exact .update may ih
  | readHost _ ih => exact .readHost ih
  | writeHost host _ ih => exact .writeHost host ih
  | runBody hf hg _ ih => exact .runBody hf hg ih
  | rereadArgs hf hg _ ih => exact .rereadArgs hf hg ih
  | rounds _ ih => exact .rounds ih
  | exhausted b => exact .exhausted b

/-- More changes may be allowed. -/
lemma mono {allowed' : Update → Prop} (imp : ∀ change, allowed change → allowed' change) {n : Nat}
    {a b : Action σ α} (h : PlainShort allowed n a b) : PlainShort allowed' n a b := by
  induction h with
  | done answer => exact .done answer
  | fail fault => exact .fail fault
  | inspect _ ih => exact .inspect ih
  | update may _ ih => exact .update (imp _ may) ih
  | readHost _ ih => exact .readHost ih
  | writeHost host _ ih => exact .writeHost host ih
  | runBody hf hg _ ih => exact .runBody hf hg ih
  | rereadArgs hf hg _ ih => exact .rereadArgs hf hg ih
  | rounds _ ih => exact .rounds ih
  | exhausted b => exact .exhausted b

/-- Plain actions follow on plain actions. -/
lemma bind {n : Nat} {a b : Action σ α} {f g : α → Action σ β} (h : PlainShort allowed n a b)
    (next : ∀ value m, PlainShort allowed m (f value) (g value)) :
    PlainShort allowed n (a >>= f) (b >>= g) := by
  induction h with
  | done answer => exact next answer _
  | fail fault => exact .fail fault
  | inspect _ ih => exact .inspect ih
  | update may _ ih => exact .update may ih
  | readHost _ ih => exact .readHost ih
  | writeHost host _ ih => exact .writeHost host ih
  | @runBody _ f' g' hf hg _ ih =>
    refine .runBody (fun error => ?_) (fun error => ?_) ih
    · rw [hf]
      rfl
    · rw [hg]
      rfl
  | @rereadArgs _ f' g' hf hg _ ih =>
    refine .rereadArgs (fun error => ?_) (fun error => ?_) ih
    · rw [hf]
      rfl
    · rw [hg]
      rfl
  | rounds _ ih => exact .rounds ih
  | exhausted b => exact .exhausted _

/-- After the body is run there is a round less. -/
lemma body {n : Nat} {f g : Unit → Action σ α} (rest : PlainShort allowed (n - 1) (f ()) (g ())) :
    PlainShort allowed n (Action.body >>= f) (Action.body >>= g) :=
  .runBody (fun _ => rfl) (fun _ => rfl) rest

end PlainShort

namespace Plain

/-- A plain action is orderly. -/
lemma orderly {action : Action σ α} (h : action.Plain allowed) : action.Orderly allowed :=
  fun n => (h n).cutShort

/-- More changes may be allowed. -/
lemma mono {allowed' : Update → Prop} (imp : ∀ change, allowed change → allowed' change)
    {action : Action σ α} (h : action.Plain allowed) : action.Plain allowed' :=
  fun n => (h n).mono imp

/-- Plain actions follow on plain actions. -/
lemma bind {action : Action σ α} {next : α → Action σ β} (h : action.Plain allowed)
    (rest : ∀ value, (next value).Plain allowed) : (action >>= next).Plain allowed :=
  fun n => (h n).bind fun value m => rest value m

/-- An answer is plain. -/
lemma pure (answer : α) : (Pure.pure answer : Action σ α).Plain allowed :=
  fun _ => .done answer

/-- A fault is plain. -/
lemma fail (fault : Fault) : (Action.fail fault : Action σ α).Plain allowed :=
  fun _ => .fail fault

/-- An answer that may be a fault is plain. -/
lemma ofExcept (result : Except Fault α) : (Action.ofExcept result : Action σ α).Plain allowed := by
  cases result with
  | ok answer => exact .pure answer
  | error fault => exact .fail fault

/-- What is plain for every context is plain after a look at it. -/
lemma inspect {rest : Context → Action σ α} (h : ∀ c, (rest c).Plain allowed) :
    (Action.inspect rest).Plain allowed :=
  fun n => .inspect fun c => h c n

/-- An allowed change is plain. -/
lemma change {change : Update} (may : allowed change) :
    (Action.change change : Action σ Unit).Plain allowed :=
  fun _ => .update may (.done ())

/-- To run the body is plain. -/
lemma body : (Action.body : Action σ Unit).Plain allowed :=
  fun _ => .runBody (fun _ => rfl) (fun _ => rfl) (.done ())

/-- Using a part of the state of the host is plain. -/
lemma use {τ ρ : Type} (slot : Slot σ τ) (f : τ → ρ × τ) : (slot.use f).Plain allowed :=
  fun _ => .readHost fun _ => .readHost fun _ => .writeHost _ (.done _)

end Plain

end Action

namespace Evaluation

/-- Handlers of a recorded interpreter can see and do nothing that the relation does not carry. -/
structure Relation.Acting (inner : Relation (Recorded σ) (Recorded σ)) (allowed : Update → Prop) :
    Prop where
  inside : inner.Monadic
  update {change : Update} : allowed change →
    inner (Evaluation.modify (·.update change)) (Evaluation.modify (·.update change))
  read {α : Type} {f g : σ → Evaluation (Recorded σ) α} : (∀ h, inner (f h) (g h)) →
    inner (host >>= fun r => f r.host) (host >>= fun r => g r.host)
  write {α : Type} (h : σ) {x y : Evaluation (Recorded σ) α} : inner x y →
    inner (host >>= fun r => setHost { r with host := h } >>= fun _ => x)
      (host >>= fun r => setHost { r with host := h } >>= fun _ => y)
  starve {α : Type} (y : Evaluation (Recorded σ) α) : inner exhausted y

/-- An action does like one that it cuts short, if what they run does alike. -/
lemma ofAction_rel_of_cutShort {inner : Relation (Recorded σ) (Recorded σ)}
    {allowed : Update → Prop} (acts : inner.Acting allowed) {body body' : Evaluation (Recorded σ) Unit}
    {arguments arguments' : Evaluation (Recorded σ) (List String)} (bodies : inner body body')
    (rereads : inner arguments arguments') {rounds rounds' : Nat} (le : rounds ≤ rounds') {n : Nat}
    {a b : Action σ α} (h : Action.CutShort allowed n a b) :
    inner (ofAction body arguments rounds a.recorded)
      (ofAction body' arguments' rounds' b.recorded) := by
  induction h with
  | done answer => exact acts.inside.pure answer
  | raise error => exact acts.inside.raise error
  | inspect _ ih => exact acts.inside.context ih
  | update may _ ih => exact acts.inside.bind (acts.update may) fun _ => ih
  | readHost _ ih => exact acts.read ih
  | writeHost host _ ih => exact acts.write host ih
  | @runBody _ f g hf hg _ ih =>
    -- an error of the body is passed on, so the rest only ever goes on after a good end
    show inner (attempt body >>= fun result => ofAction _ _ _ (f (error? result)).recorded)
      (attempt body' >>= fun result => ofAction _ _ _ (g (error? result)).recorded)
    rw [attempt_bind, attempt_bind]
    · exact acts.inside.bind bodies fun _ => ih
    · intro error
      rw [error?, hg]
      rfl
    · intro error
      rw [error?, hf]
      rfl
  | @rereadArgs _ f g hf hg _ ih =>
    show inner (attempt arguments >>= fun result => ofAction _ _ _ (f result).recorded)
      (attempt arguments' >>= fun result => ofAction _ _ _ (g result).recorded)
    rw [attempt_bind, attempt_bind]
    · exact acts.inside.bind rereads ih
    · intro error
      rw [hg]
      rfl
    · intro error
      rw [hf]
      rfl
  | rounds _ ih => exact ih rounds rounds' le
  | exhausted b => exact acts.starve _

/-- With more rounds for its loops, an orderly action does alike if what it runs does. -/
lemma ofAction_rel {inner : Relation (Recorded σ) (Recorded σ)} {allowed : Update → Prop}
    (acts : inner.Acting allowed) {body body' : Evaluation (Recorded σ) Unit}
    {arguments arguments' : Evaluation (Recorded σ) (List String)} (bodies : inner body body')
    (rereads : inner arguments arguments') {rounds rounds' : Nat} (le : rounds ≤ rounds')
    {action : Action σ α} (h : action.Orderly allowed) :
    inner (ofAction body arguments rounds action.recorded)
      (ofAction body' arguments' rounds' action.recorded) :=
  ofAction_rel_of_cutShort acts bodies rereads le (h rounds)

end Evaluation

/-- Every call that the handler serves is served by an orderly action. -/
def Handler.Orderly (handler : Handler σ) : Prop :=
  ∀ call, (handler.invoke call).Orderly fun _ => True

/-- The handler that serves a name is one of the registered ones. -/
lemma Chain.exists_of_firstFor {name : String} {entries : List (String × Handler σ)}
    {handler : Handler σ} (h : Chain.firstFor name entries = some handler) :
    ∃ entry ∈ entries, entry.2 = handler := by
  induction entries with
  | nil => cases h
  | cons entry rest ih =>
    obtain ⟨registered, first⟩ := entry
    rw [Chain.firstFor] at h
    split at h
    · cases h
      exact ⟨_, List.mem_cons_self, rfl⟩
    · obtain ⟨entry, mem, e⟩ := ih h
      exact ⟨entry, List.mem_cons_of_mem _ mem, e⟩

/-- The handler that serves a name answers to it. -/
lemma Chain.answersTo_of_firstFor {name : String} {entries : List (String × Handler σ)}
    {handler : Handler σ} (h : Chain.firstFor name entries = some handler) :
    handler.answersTo name := by
  induction entries with
  | nil => cases h
  | cons entry rest ih =>
    obtain ⟨registered, first⟩ := entry
    rw [Chain.firstFor] at h
    split at h
    · rename_i answers
      cases h
      exact answers
    · exact ih h

namespace Interpreter

/-- Each handler is one of these, for the kind of the calls that it serves. -/
def Uses (it : Interpreter σ) (serving : CallKind → Handler σ → Prop) : Prop :=
  ∀ kind, ∀ entry ∈ (it.registry.chain kind).entries, serving kind entry.2

/-- Handlers of a kind are of every wider kind. -/
lemma Uses.mono {it : Interpreter σ} {serving serving' : CallKind → Handler σ → Prop}
    (uses : it.Uses serving) (imp : ∀ kind handler, serving kind handler → serving' kind handler) :
    it.Uses serving' :=
  fun kind entry mem => imp kind _ (uses kind entry mem)

/-- An interpreter serves a name like itself if each of its handlers serves alike. -/
lemma handlers_self {it : Interpreter σ} {serving : CallKind → Handler σ → Prop}
    (uses : it.Uses serving) {rel : Handler σ → Handler σ → Prop} {kind : CallKind} {name : String}
    (each : ∀ handler, serving kind handler → rel handler handler) :
    Option.Rel rel (Chain.handlerFor? (it.registry.chain kind) name)
      (Chain.handlerFor? (it.registry.chain kind) name) := by
  cases e : Chain.handlerFor? (it.registry.chain kind) name with
  | none => exact .none
  | some handler =>
    obtain ⟨entry, mem, rfl⟩ := Chain.exists_of_firstFor e
    exact .some (each _ (uses kind entry mem))

/-- A recording interpreter uses the recorded handlers. -/
lemma Uses.recorded {it : Interpreter σ} {serving : CallKind → Handler σ → Prop}
    (uses : it.Uses serving) :
    it.recorded.Uses fun kind handler =>
      ∃ served, serving kind served ∧ handler = served.recorded := by
  intro kind _ mem
  rw [chain_recorded] at mem
  obtain ⟨entry, before, rfl⟩ := List.mem_map.1 mem
  exact ⟨entry.2, uses kind entry before, rfl⟩

/-- Two interpreters with the same handlers, which are recorded, serve a name alike if each of the
handlers serves alike. -/
lemma handlers_rel {it : Interpreter σ} {serving : CallKind → Handler σ → Prop}
    (uses : it.Uses serving) {rel : Handler (Recorded σ) → Handler (Recorded σ) → Prop}
    {kind : CallKind} {name : String}
    (each : ∀ handler, serving kind handler → rel handler.recorded handler.recorded) :
    Option.Rel rel (Chain.handlerFor? (it.recorded.registry.chain kind) name)
      (Chain.handlerFor? (it.recorded.registry.chain kind) name) := by
  refine handlers_self uses.recorded ?_
  rintro _ ⟨handler, served, rfl⟩
  exact each handler served

end Interpreter

end Scriptlet
