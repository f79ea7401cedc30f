import Scriptlet.Proofs.Limits.Fuel

/-!
# Enough fuel

What has an end with some fuel has the same end with more (`Growing`), so it makes sense to ask what
an evaluation does with as much fuel as it needs (`enough`). What is put together from evaluations
does with enough fuel what its parts do with enough fuel.
-/

namespace Scriptlet

variable {σ α β : Type}

namespace Evaluation

/-- What has an end with some fuel has the same end with more. -/
def Growing (x : Nat → Evaluation (Recorded σ) α) : Prop :=
  ∀ more fuel, Refines (x fuel) (x (more + fuel))

open Classical in
/-- What an evaluation does with as much fuel as it needs. -/
noncomputable def enough (x : Nat → Evaluation (Recorded σ) α) : Evaluation (Recorded σ) α := fun s =>
  if h : ∃ fuel, (x fuel s).isSome then x h.choose s else none

section

variable {x y : Nat → Evaluation (Recorded σ) α}

/-- More fuel refines what less fuel has done. -/
lemma Growing.of_le (grows : Growing x) {m n : Nat} (le : m ≤ n) : Refines (x m) (x n) := by
  have more := grows (n - m) m
  rwa [Nat.sub_add_cancel le] at more

/-- An end with enough fuel is one with some fuel. -/
lemma exists_of_enough {s : State (Recorded σ)} {ended : Except RuntimeError α × State (Recorded σ)}
    (ends : enough x s = some ended) : ∃ fuel, x fuel s = some ended := by
  rw [enough] at ends
  split at ends
  · exact ⟨_, ends⟩
  · cases ends

/-- With enough fuel an evaluation has the end that it has with some fuel. -/
lemma enough_eq_some (grows : Growing x) {s : State (Recorded σ)}
    {ended : Except RuntimeError α × State (Recorded σ)} :
    enough x s = some ended ↔ ∃ fuel, x fuel s = some ended := by
  refine ⟨exists_of_enough, fun ⟨fuel, found⟩ => ?_⟩
  have ends : ∃ fuel, (x fuel s).isSome := ⟨fuel, by rw [found]; rfl⟩
  obtain ⟨first, same⟩ := Option.isSome_iff_exists.1 ends.choose_spec
  rw [enough, dif_pos ends, same]
  exact (grows.of_le (Nat.le_max_left _ fuel) s first same).symm.trans
    (grows.of_le (Nat.le_max_right _ fuel) s ended found)

/-- Two ways of giving fuel that never fall far behind each other come to the same. -/
lemma enough_congr (hx : Growing x) (hy : Growing y) (le : ∀ fuel, Refines (x fuel) (y fuel))
    (ge : ∀ fuel, Refines (y fuel) (x (fuel + 1))) : enough x = enough y := by
  funext s
  ext ended
  rw [enough_eq_some hx, enough_eq_some hy]
  constructor
  · rintro ⟨fuel, found⟩
    exact ⟨fuel, le fuel s ended found⟩
  · rintro ⟨fuel, found⟩
    exact ⟨fuel + 1, ge fuel s ended found⟩

/-- With one unit more throughout, more fuel still refines. -/
lemma Growing.succ (hx : Growing x) : Growing fun fuel => x (fuel + 1) :=
  fun more fuel => hx more (fuel + 1)

/-- A first unit of fuel makes no difference. -/
lemma enough_succ (hx : Growing x) : enough (fun fuel => x (fuel + 1)) = enough x :=
  (enough_congr hx hx.succ (fun fuel => hx.of_le (Nat.le_succ fuel)) fun _ _ _ found => found).symm

/-- What needs no fuel grows with any. -/
lemma Growing.const (z : Evaluation (Recorded σ) α) : Growing fun _ => z :=
  fun _ _ _ _ found => found

/-- What needs no fuel has enough. -/
lemma enough_const (z : Evaluation (Recorded σ) α) : (enough fun _ => z) = z := by
  funext s
  ext ended
  rw [enough_eq_some (.const z)]
  exact exists_const Nat

/-- Both parts may use the same fuel. -/
lemma Growing.bind {f : α → Nat → Evaluation (Recorded σ) β} (hx : Growing x)
    (hf : ∀ value, Growing (f value)) : Growing fun fuel => x fuel >>= fun value => f value fuel :=
  fun more fuel => Refines.monadic.bind (hx more fuel) fun value => hf value more fuel

/-- One evaluation after another does with enough fuel what each of them does. -/
lemma enough_bind {f : α → Nat → Evaluation (Recorded σ) β} (hx : Growing x)
    (hf : ∀ value, Growing (f value)) :
    (enough fun fuel => x fuel >>= fun value => f value fuel) =
      enough x >>= fun value => enough (f value) := by
  funext s
  ext ⟨result, s'⟩
  rw [enough_eq_some (hx.bind hf)]
  constructor
  · rintro ⟨fuel, found⟩
    rcases bind_cases found with ⟨value, s₁, first, rest⟩ | ⟨error, failed, rfl⟩
    · rw [bind_of_ok ((enough_eq_some hx).2 ⟨fuel, first⟩)]
      exact (enough_eq_some (hf value)).2 ⟨fuel, rest⟩
    · exact bind_of_error ((enough_eq_some hx).2 ⟨fuel, failed⟩) _
  · intro found
    rcases bind_cases found with ⟨value, s₁, first, rest⟩ | ⟨error, failed, rfl⟩
    · obtain ⟨m, first⟩ := (enough_eq_some hx).1 first
      obtain ⟨n, rest⟩ := (enough_eq_some (hf value)).1 rest
      refine ⟨max m n, ?_⟩
      rw [bind_of_ok (hx.of_le (Nat.le_max_left m n) _ _ first)]
      exact (hf value).of_le (Nat.le_max_right m n) _ _ rest
    · obtain ⟨fuel, failed⟩ := (enough_eq_some hx).1 failed
      exact ⟨fuel, bind_of_error failed _⟩

/-- A choice that does not depend on fuel may stand outside. -/
lemma Growing.orElse (hx : Growing x) (p : Prop) [Decidable p] (y : Evaluation (Recorded σ) α) :
    Growing fun fuel => if p then y else x fuel := by
  split
  · exact .const _
  · exact hx

/-- A choice that does not depend on fuel is made with enough of it. -/
lemma enough_orElse (p : Prop) [Decidable p] (y : Evaluation (Recorded σ) α) :
    (enough fun fuel => if p then y else x fuel) = if p then y else enough x := by
  split
  · exact enough_const _
  · rfl

/-- Execution goes on with the evaluation unless it is on its way out. -/
lemma Growing.unless (hx : Growing x) (value : α) :
    Growing fun fuel => context >>= fun c => if c.isInterrupted then pure value else x fuel :=
  Growing.bind (.const _) fun _ => hx.orElse _ _

/-- Where an interruption is looked for first, it is so with enough fuel. -/
lemma enough_unless (hx : Growing x) (value : α) :
    (enough fun fuel => context >>= fun c => if c.isInterrupted then pure value else x fuel) =
      context >>= fun c => if c.isInterrupted then pure value else enough x := by
  rw [enough_bind (.const _) fun c : Context => hx.orElse _ _, enough_const]
  exact congrArg (context >>= ·) (funext fun c => enough_orElse _ _)

/-- In a frame more fuel refines as it does outside. -/
lemma Growing.inFrame (hx : Growing x) (frame : Frame) :
    Growing fun fuel => Evaluation.inFrame frame (x fuel) :=
  fun more fuel => Refines.inFrame frame (hx more fuel)

/-- With enough fuel in a frame there is enough outside. -/
lemma enough_inFrame (hx : Growing x) (frame : Frame) :
    (enough fun fuel => inFrame frame (x fuel)) = inFrame frame (enough x) := by
  funext s
  ext ⟨result, s'⟩
  rw [enough_eq_some (hx.inFrame frame)]
  constructor
  · rintro ⟨fuel, found⟩
    obtain ⟨inner, s₁, first, rfl, ⟨value, rfl, rfl⟩ | ⟨error, rfl, rfl⟩⟩ := inFrame_cases found
    · exact inFrame_of_ok ((enough_eq_some hx).2 ⟨fuel, first⟩)
    · exact inFrame_of_error ((enough_eq_some hx).2 ⟨fuel, first⟩)
  · intro found
    obtain ⟨inner, s₁, first, rfl, ⟨value, rfl, rfl⟩ | ⟨error, rfl, rfl⟩⟩ := inFrame_cases found
    · obtain ⟨fuel, first⟩ := (enough_eq_some hx).1 first
      exact ⟨fuel, inFrame_of_ok first⟩
    · obtain ⟨fuel, first⟩ := (enough_eq_some hx).1 first
      exact ⟨fuel, inFrame_of_error first⟩

/-- What relates the ends for every amount of fuel relates those with enough fuel. -/
lemma enough_rel {y : Nat → Evaluation (Recorded σ) β}
    {rel : Except RuntimeError α × State (Recorded σ) → Except RuntimeError β × State (Recorded σ) → Prop}
    (hx : Growing x) (hy : Growing y) {s t : State (Recorded σ)}
    (each : ∀ fuel, Option.Rel rel (x fuel s) (y fuel t)) :
    Option.Rel rel (enough x s) (enough y t) := by
  by_cases ends : ∃ fuel, (x fuel s).isSome
  · obtain ⟨fuel, found⟩ := ends
    obtain ⟨ended, found⟩ := Option.isSome_iff_exists.1 found
    have related := each fuel
    rw [(enough_eq_some hx).2 ⟨fuel, found⟩]
    rw [found] at related
    generalize other : y fuel t = right at related
    cases related with
    | some related =>
      rw [(enough_eq_some hy).2 ⟨fuel, other⟩]
      exact .some related
  · have other : ¬ ∃ fuel, (y fuel t).isSome := by
      rintro ⟨fuel, found⟩
      have related := each fuel
      generalize left : x fuel s = l, right : y fuel t = r at related found
      cases related with
      | none => cases found
      | some _ =>
        refine ends ⟨fuel, ?_⟩
        rw [left]
        rfl
    rw [enough, enough, dif_neg ends, dif_neg other]
    exact .none

end

end Evaluation

open Evaluation

namespace Interpreter

/-- A call whose name is a literal evaluates nothing but its arguments before it is served. -/
lemma call_of_literal {τ : Type} (it : Interpreter τ) (run : Node Token → Evaluation τ Unit)
    (expand : Expand τ) (rounds : Nat) {site : CallSite} {origin : Token} {name : String}
    (literal : site.name = .literal origin name) :
    it.call run expand rounds site =
      Word.arguments expand site.args >>= it.serve run expand rounds site name := by
  rw [call, literal, Word.slots_literal]
  rfl

/-- What running a piece does with enough fuel. -/
noncomputable def runs (it : Interpreter σ) (node : Node Token) : Evaluation (Recorded σ) Unit :=
  enough fun fuel => it.recorded.runNode fuel node

/-- What evaluating arguments does with enough fuel. -/
noncomputable def reads (it : Interpreter σ) (words : List (Word Token)) :
    Evaluation (Recorded σ) (List String) :=
  enough fun fuel => Word.arguments (it.recorded.expand fuel) words

/-- What a handler does at a call with enough fuel. -/
noncomputable def acts (it : Interpreter σ) (site : CallSite) (name : String) (action : Action σ α) :
    Evaluation (Recorded σ) α :=
  enough fun fuel => ofAction (runBody (it.recorded.runNode fuel) site name)
    (Word.arguments (it.recorded.expand fuel) site.args) fuel action.recorded

/-- What serving a call does with enough fuel. -/
noncomputable def serves (it : Interpreter σ) (site : CallSite) (name : String) (args : List String) :
    Evaluation (Recorded σ) String :=
  enough fun fuel =>
    it.recorded.serve (it.recorded.runNode fuel) (it.recorded.expand fuel) fuel site name args

/-- The call of a control statement. -/
def controlSite (origin : Token) (name : Word Token) (args : List (Word Token))
    (body : Statement Token) : CallSite :=
  let node : Node Token := .statement (.control origin name args body)
  ⟨.control, name, args, some body, node, node.start⟩

variable {it : Interpreter σ}

/-- Goes on with a call only if the run was not stopped, and if one more may be in progress. -/
def permit (it : Interpreter σ) (location : Location) (stopped : α) (x : Evaluation (Recorded σ) α) :
    Evaluation (Recorded σ) α :=
  context >>= fun c =>
    if c.isStopped then pure stopped
    else if 0 < it.limits.maxCallDepth && it.limits.maxCallDepth ≤ c.scopes.depth then
      failAt location (.depthCeiling it.limits.maxCallDepth)
    else x

/-- After a stop a call is passed over. -/
lemma permit_of_stopped {s : State (Recorded σ)} (stopped : s.context.isStopped = true)
    (location : Location) (value : α) (x : Evaluation (Recorded σ) α) :
    it.permit location value x s = some (.ok value, s) := by
  show (if s.context.isStopped then _ else _ : Evaluation (Recorded σ) α) s = _
  rw [if_pos stopped]
  rfl

/-- Where there is room for a call, it is made. -/
lemma permit_of_room {s : State (Recorded σ)} (goes_on : s.context.isStopped = false)
    (room : it.limits.maxCallDepth = 0 ∨ s.context.scopes.depth < it.limits.maxCallDepth)
    (location : Location) (value : α) (x : Evaluation (Recorded σ) α) :
    it.permit location value x s = x s := by
  have shallow : (0 < it.limits.maxCallDepth && it.limits.maxCallDepth ≤ s.context.scopes.depth) =
      false := by
    simp only [Bool.and_eq_false_iff, decide_eq_false_iff_not]
    omega
  show (if s.context.isStopped then _ else if _ then _ else _ : Evaluation (Recorded σ) α) s = _
  rw [goes_on, shallow]
  rfl

/-- What is made of the answer may be made of it in the call. -/
lemma permit_bind (location : Location) (value : α) (x : Evaluation (Recorded σ) α) (f : α → β) :
    (it.permit location value x >>= fun answer => pure (f answer)) =
      it.permit location (f value) (x >>= fun answer => pure (f answer)) := by
  unfold permit
  rw [bind_assoc]
  refine congrArg (context >>= ·) (funext fun c => ?_)
  split
  · rfl
  · split <;> rfl

/-- With enough fuel a call is made where there is room. -/
lemma enough_permit {x : Nat → Evaluation (Recorded σ) α} (hx : Growing x) (location : Location)
    (value : α) :
    (enough fun fuel => it.permit location value (x fuel)) = it.permit location value (enough x) := by
  unfold permit
  rw [enough_bind (.const _) fun c : Context => (hx.orElse _ _).orElse _ _, enough_const]
  refine congrArg (context >>= ·) (funext fun c => ?_)
  rw [enough_orElse, enough_orElse]

/-- A control call that has a handler is served by it in a frame of its own. -/
lemma serve_of_control {site : CallSite} (control : site.kind = .control) {name : String}
    (named : name ≠ "") {handler : Handler σ}
    (found : Chain.handlerFor? (it.registry.chain .control) name = some handler) (fuel : Nat)
    (args : List String) :
    let call : ActiveCall := ⟨name, .control, args, site.location⟩
    it.recorded.serve (it.recorded.runNode fuel) (it.recorded.expand fuel) fuel site name args =
      it.permit site.location "" (inFrame (.ofCall call false) (it.recorded.handle
        (it.recorded.runNode fuel) (it.recorded.expand fuel) fuel site call handler.recorded) >>=
          fun answer => pure (answer.getD "")) := by
  intro call
  have serving : Chain.handlerFor? (it.recorded.registry.chain site.kind) name =
      some handler.recorded := by
    rw [chain_recorded, Chain.handlerFor?_recorded, control, found]
    rfl
  have dispatched : it.recorded.dispatch (it.recorded.runNode fuel) (it.recorded.expand fuel) fuel
      site none call = it.recorded.handle (it.recorded.runNode fuel) (it.recorded.expand fuel) fuel
        site call handler.recorded := by
    rw [control] at serving
    unfold dispatch
    dsimp only
    rw [serving]
  rw [serve, if_neg named, ← dispatched]
  rw [control] at serving ⊢
  rfl

section

variable (uses : it.Uses fun _ handler => handler.Orderly)
include uses

/-- More fuel refines the run of a piece of a script. -/
lemma growing_runNode (node : Node Token) : Growing fun fuel => it.recorded.runNode fuel node :=
  fun more fuel => (run_refines uses more fuel).1 node

/-- More fuel refines the evaluation of arguments. -/
lemma growing_arguments (words : List (Word Token)) :
    Growing fun fuel => Word.arguments (it.recorded.expand fuel) words :=
  fun more fuel =>
    Word.arguments_rel Refines.monadic.toSequential (run_refines uses more fuel).2 words

/-- More fuel refines how a call is served. -/
lemma growing_serve (site : CallSite) (name : String) (args : List String) :
    Growing fun fuel =>
      it.recorded.serve (it.recorded.runNode fuel) (it.recorded.expand fuel) fuel site name args := by
  intro more fuel
  obtain ⟨runs, expands⟩ := run_refines uses more fuel
  exact serve_refines uses runs expands (Nat.le_add_left _ _) site name args

/-- More fuel refines what an orderly handler does. -/
lemma growing_acts (site : CallSite) (name : String) {action : Action σ α}
    {allowed : Update → Prop} (orderly : action.Orderly allowed) :
    Growing fun fuel => ofAction (runBody (it.recorded.runNode fuel) site name)
      (Word.arguments (it.recorded.expand fuel) site.args) fuel action.recorded := by
  intro more fuel
  refine ofAction_rel (Refines.acting _) ?_ ?_ (Nat.le_add_left _ _) orderly
  · exact runBody_rel (Refines.framed it.recorded) (run_refines uses more fuel).1 site name
  · exact growing_arguments uses site.args more fuel

/-- More fuel refines what a piece of a script does. -/
lemma growing_perform (node : Node Token) :
    Growing fun fuel =>
      it.recorded.perform (it.recorded.runNode fuel) (it.recorded.expand fuel) fuel node := by
  intro more fuel
  obtain ⟨runs, expands⟩ := run_refines uses more fuel
  exact perform_rel Refines.monadic.toSequential runs expands
    (serve_refines uses runs expands (Nat.le_add_left _ _)) node

/-- Running a piece begins with its step, and then it is counted. -/
lemma runs_eq (node : Node Token) :
    it.runs node = it.recorded.step node.start >>= fun _ => countStatement >>= fun _ =>
      enough fun fuel =>
        it.recorded.perform (it.recorded.runNode fuel) (it.recorded.expand fuel) fuel node := by
  have grows := growing_perform uses node
  rw [runs, ← enough_succ (growing_runNode uses node)]
  simp only [runNode]
  rw [enough_bind (.const _) fun _ => Growing.bind (.const _) fun _ => grows, enough_const,
    enough_bind (.const _) fun _ => grows, enough_const]

/-- More fuel refines the run of statements in order. -/
lemma growing_sequence (body : List (Statement Token)) :
    Growing fun fuel => sequence (fun statement => it.recorded.runNode fuel (.statement statement)) body :=
  fun more fuel => sequence_lockstep Refines.monadic.toSequential.placing.toLockstep
    (fun _ => growing_runNode uses _ more fuel) body

/-- A block runs its statements in order. -/
lemma runs_block (origin : Token) (body : List (Statement Token)) :
    it.runs (.statement (.block origin body)) =
      it.recorded.step (Node.statement (.block origin body)).start >>= fun _ =>
        countStatement >>= fun _ => sequence (fun statement => it.runs (.statement statement)) body := by
  have statements : (enough fun fuel =>
      sequence (fun statement => it.recorded.runNode fuel (.statement statement)) body) =
        sequence (fun statement => it.runs (.statement statement)) body := by
    induction body with
    | nil => exact enough_const _
    | cons statement rest ih =>
      have grows := (growing_runNode uses (.statement statement)).bind fun _ => growing_sequence uses rest
      simp only [sequence]
      rw [enough_unless grows, enough_bind (growing_runNode uses _) fun _ => growing_sequence uses rest,
        ih]
      rfl
  rw [runs_eq uses, ← statements]
  rfl

/-- A control call whose name is a literal evaluates its arguments, and is served. -/
lemma runs_control (origin named : Token) (name : String) (args : List (Word Token))
    (body : Statement Token) :
    let site := controlSite origin (.literal named name) args body
    it.runs site.node =
      it.recorded.step site.location >>= fun _ => countStatement >>= fun _ => it.reads args >>= fun given =>
        it.serves site name given >>= fun _ => pure () := by
  intro site
  have calls : ∀ fuel, it.recorded.perform (it.recorded.runNode fuel) (it.recorded.expand fuel) fuel
      site.node = Word.arguments (it.recorded.expand fuel) args >>= fun given =>
        it.recorded.serve (it.recorded.runNode fuel) (it.recorded.expand fuel) fuel site name given >>=
          fun _ => pure () := by
    intro fuel
    show it.recorded.call _ _ _ site >>= _ = _
    rw [call_of_literal _ _ _ _ rfl, bind_assoc]
    rfl
  have ends : ∀ given, Growing fun fuel =>
      it.recorded.serve (it.recorded.runNode fuel) (it.recorded.expand fuel) fuel site name given >>=
        fun _ => pure () :=
    fun given => (growing_serve uses site name given).bind fun _ => .const _
  have served : ∀ given, (enough fun fuel =>
      it.recorded.serve (it.recorded.runNode fuel) (it.recorded.expand fuel) fuel site name given >>=
        fun _ => pure ()) = it.serves site name given >>= fun _ => pure () := by
    intro given
    rw [enough_bind (growing_serve uses site name given) fun _ => .const _, enough_const]
    rfl
  rw [runs_eq uses]
  simp only [calls]
  rw [enough_bind (growing_arguments uses args) ends]
  simp only [served]
  rfl

/-- With enough fuel, too, a control call is served by its handler in a frame of its own. -/
lemma serves_control {site : CallSite} (control : site.kind = .control) {name : String}
    (named : name ≠ "") {handler : Handler σ}
    (found : Chain.handlerFor? (it.registry.chain .control) name = some handler)
    (args : List String) :
    let call : ActiveCall := ⟨name, .control, args, site.location⟩
    it.serves site name args = it.permit site.location "" (inFrame (.ofCall call false)
      (notify it.recorded.observe (.handler call) >>= fun _ =>
        it.acts site name (handler.invoke ⟨call, site.node, site.body⟩)) >>= fun answer =>
          pure (answer.getD "")) := by
  intro call
  let handles : Nat → Evaluation (Recorded σ) (Option String) := fun fuel =>
    it.recorded.handle (it.recorded.runNode fuel) (it.recorded.expand fuel) fuel site call
      handler.recorded
  obtain ⟨entry, mem, rfl⟩ := Chain.exists_of_firstFor found
  have acting := growing_acts uses site name (uses .control entry mem ⟨call, site.node, site.body⟩)
  have handling : Growing handles := (Growing.const _).bind fun _ => acting
  have handled : enough handles = notify it.recorded.observe (.handler call) >>= fun _ =>
      it.acts site name (entry.2.invoke ⟨call, site.node, site.body⟩) := by
    refine (enough_bind (.const _) fun _ => acting).trans ?_
    rw [enough_const]
    rfl
  have framed : Growing fun fuel => inFrame (.ofCall call false) (handles fuel) >>= fun answer =>
      (pure (answer.getD "") : Evaluation (Recorded σ) String) :=
    (handling.inFrame _).bind fun _ => .const _
  rw [serves]
  simp only [serve_of_control control named found]
  rw [enough_permit framed, enough_bind (handling.inFrame _) fun _ => .const _, enough_inFrame handling,
    handled]
  simp only [enough_const]

end

end Interpreter

end Scriptlet
