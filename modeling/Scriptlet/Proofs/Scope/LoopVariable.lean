import Scriptlet.Proofs.Choice.Calls
import Scriptlet.Proofs.Scope.Discipline
import Scriptlet.Proofs.Scope.Isolation
import Scriptlet.Proofs.Scope.Nonlocal

/-!
# The variable of a loop

A `for` takes its variable away when it ends well, in the scope in which it ran, whatever its body
has done meanwhile: unless the body says of the name that it leads elsewhere, the scope keeps the name
to itself (`run_withholds`), and this is where the loop takes it away. If the body fails, the loop
fails before it comes to that.
-/

namespace Scriptlet

variable {σ α γ : Type} [RandomSource γ]

/-- The name that a change forwards, if it forwards one. -/
def Update.forwarded? : Update → Option String
  | declareGlobal name | declareNonlocal name => some name
  | _ => none

/-- A call begins that may forward this name. -/
def Event.Declares (name : String) : Event → Prop
  | .handler call => call.Forwards ∧ name ∈ call.args
  | _ => False

/-- A call begins that may forward this name in the scope of the frame with this number. -/
def Moment.Declares (number : Nat) (name : String) (moment : Moment) : Prop :=
  moment.event.Declares name ∧ moment.context.scopes.current = number

instance (name : String) : (event : Event) → Decidable (event.Declares name)
  | .handler call => inferInstanceAs (Decidable (call.Forwards ∧ name ∈ call.args))
  | .step _ => .isFalse id
  | .definition _ => .isFalse id

instance (number : Nat) (name : String) (moment : Moment) : Decidable (moment.Declares number name) :=
  inferInstanceAs (Decidable (_ ∧ _))

/-- However the handler serves a call, it does not forward this name. -/
def Handler.Still (name : String) (handler : Handler σ) : Prop :=
  ∀ call, (handler.invoke call).Confined (· = ·) (fun change => change.forwarded? ≠ some name) True

/-- A handler of the base library or of the standard streams, or one that does not forward this
name. -/
def Scoped (name : String) (random : Slot σ γ) (streams : Slot σ Streams) (kind : CallKind)
    (handler : Handler σ) : Prop :=
  Standard random streams kind handler ∨ handler.Still name

namespace Library

/-- Doing something confined for each of some names is confined. -/
lemma forEach_confined_of_mem {same : Context → Context → Prop} {allowed : Update → Prop}
    {runs : Prop} {change : String → Action σ Unit} {items : List String}
    (each : ∀ item ∈ items, (change item).Confined same allowed runs) :
    (forEach change items).Confined same allowed runs := by
  induction items with
  | nil => exact .pure ()
  | cons item items ih =>
    refine .bind (each item List.mem_cons_self) fun _ => ih fun item mem => ?_
    exact each item (List.mem_cons_of_mem _ mem)

/-- The handler of `global` forwards names that it was given. -/
lemma global_names (call : Call) : (global call : Action σ _).Confined (· = ·)
    (fun change => ∀ name ∈ change.forwarded?, name ∈ call.args) True := by
  refine .bind (.ofExcept _) fun _ => .bind (forEach_confined_of_mem fun item mem => ?_) fun _ => .pure _
  refine .change fun name forwarded => ?_
  cases forwarded
  exact mem

/-- So does the handler of `nonlocal`. -/
lemma nonlocal_names (call : Call) : (nonlocal call : Action σ _).Confined (· = ·)
    (fun change => ∀ name ∈ change.forwarded?, name ∈ call.args) True := by
  refine .bind (.ofExcept _) fun _ => .bind (forEach_confined_of_mem fun item mem => ?_) fun _ => .pure _
  refine .inspect (fun c c' same => by rw [same]) fun c => ?_
  dsimp only [Action.andThen]
  cases c.scopes.enclosing? item with
  | none => exact .fail _
  | some target =>
    refine .change fun name forwarded => ?_
    cases forwarded
    exact mem

/-- The calls of the standard streams forward no names. -/
lemma stdio_names (streams : Slot σ Streams) (call : Call) : ((stdio streams).invoke call).Confined
    (· = ·) (fun change => change.forwarded? = none) True := by
  unfold stdio
  dsimp only
  split
  · exact .bind (.use streams _) fun _ => .bind (.ofExcept _) fun _ => .pure _
  · refine .bind (.ofExcept _) fun _ => .bind (.use streams _) fun _ => .bind (.ofExcept _) fun _ => ?_
    exact .bind (.change rfl) fun _ => .pure _
  · exact .fail _

end Library

/-- A change that forwards nothing forwards no name. -/
lemma Update.forwarded?_of_not_forwards {change : Update} (keeps : ¬ change.Forwards) :
    change.forwarded? = none := by
  cases change with
  | declareGlobal name => exact absurd trivial keeps
  | declareNonlocal name => exact absurd trivial keeps
  | _ => rfl

/-- A standard handler forwards no names but the arguments of a call that says so. -/
lemma Standard.forwards_arguments {random : Slot σ γ} {streams : Slot σ Streams}
    {kind : CallKind} {handler : Handler σ} (h : Standard random streams kind handler) (call : Call)
    (same : call.active.kind = kind) :
    (handler.invoke call).Confined (· = ·)
      (fun change => ∀ name ∈ change.forwarded?, call.active.Forwards ∧ name ∈ call.args) True := by
  by_cases forwards : call.active.Forwards
  · have names : ∀ change : Update, (∀ name ∈ change.forwarded?, name ∈ call.args) →
        ∀ name ∈ change.forwarded?, call.active.Forwards ∧ name ∈ call.args :=
      fun change named name mem => ⟨forwards, named name mem⟩
    obtain ⟨command, named⟩ := forwards
    obtain rfl : kind = .command := same.symm.trans command
    cases h with
    | stdio =>
      refine (Library.stdio_names streams call).mono (fun _ _ => id) (fun change none => ?_) id
      rw [none]
      exact nofun
    | commands =>
      rcases named with named | named
      · have found : (Library.commands : Callbacks σ).find? call.name = some Library.global := by
          rw [Call.name, named]
          rfl
        rw [Callbacks.invoke_of_find? found]
        exact (Library.global_names call).mono (fun _ _ => id) names id
      · have found : (Library.commands : Callbacks σ).find? call.name = some Library.nonlocal := by
          rw [Call.name, named]
          rfl
        rw [Callbacks.invoke_of_find? found]
        exact (Library.nonlocal_names call).mono (fun _ _ => id) names id
  · subst same
    refine (h.confined call).mono (fun c c' same => ?_) (fun change made => ?_) fun _ => trivial
    · subst same
      exact ⟨.refl c, fun _ => rfl⟩
    · rw [Update.forwarded?_of_not_forwards (MadeBy.not_forwards forwards made)]
      exact nofun

namespace ScopeStack

variable {s t : ScopeStack} {number : Nat} {name : String}

/-- Where a name leads depends on the scopes only. -/
lemma redirectAt?_congr (h : s.toList.map Frame.scope = t.toList.map Frame.scope) (number : Nat)
    (name : String) : s.redirectAt? number name = t.redirectAt? number name := by
  rw [redirectAt?, redirectAt?, scopeAt_congr h]

/-- There are so many frames above the frame with this number, at least, and its scope keeps the name
to itself. -/
structure KeepsName (number : Nat) (name : String) (above : Nat) (s : ScopeStack) : Prop where
  there : number + above ≤ s.depth
  kept : s.redirectAt? number name = none

namespace KeepsName

variable {above : Nat}

/-- The name is kept as long as the scopes are the same. -/
lemma congr (h : KeepsName number name above s)
    (scopes : t.toList.map Frame.scope = s.toList.map Frame.scope) : KeepsName number name above t where
  there := by
    have depth : t.depth = s.depth := by
      have lengths := congrArg List.length scopes
      simpa using lengths
    rw [depth]
    exact h.there
  kept := by rw [redirectAt?_congr scopes, h.kept]

/-- The name is kept through a call. -/
lemma push (h : KeepsName number name above s) (call : ActiveCall) (owns : Bool) :
    KeepsName number name (above + 1) (s.push (.ofCall call owns)) where
  there := by
    have there := h.there
    rw [depth_push]
    omega
  kept := by
    have there := h.there
    have still_there : number ≤ (Operation.apply s (.push call owns)).depth := by
      show number ≤ (s.push _).depth
      rw [depth_push]
      omega
    exact (redirectAt?_apply still_there fun _ => id).trans h.kept

/-- And through the end of a call further in. -/
lemma pop (h : KeepsName number name (above + 1) s) : KeepsName number name above s.pop where
  there := by
    have there := h.there
    rw [depth_pop]
    omega
  kept := by
    have there := h.there
    have still_there : number ≤ (Operation.apply s .pop).depth := by
      show number ≤ s.pop.depth
      rw [depth_pop]
      omega
    exact (redirectAt?_apply still_there fun _ => id).trans h.kept

/-- A name that is bound in the current scope is kept there. -/
lemma bindLocal (h : KeepsName number name above s) (other value : String) :
    KeepsName number name above (s.bindLocal other value) where
  there := by
    rw [ScopeStack.bindLocal, depth_modifyScope]
    exact h.there
  kept := by
    have kept := h.kept
    rw [redirectAt?] at kept ⊢
    rw [ScopeStack.bindLocal, scopeAt_modifyScope]
    split
    · cases own : s.scopeAt number with
      | none => rfl
      | some scope =>
        rw [own] at kept
        show (scope.redirects.erase other).get? name = none
        rw [Table.get?_erase]
        split
        · rfl
        · exact kept
    · exact kept

end KeepsName

/-- The value of a name that the current scope keeps is its own. -/
lemma get?_of_kept (kept : s.redirectAt? s.current name = none) :
    s.get? name = s.bindingAt? s.current name := by
  rw [get?_eq_seenAt?, seenAt?, kept]
  rfl

/-- Where the current scope keeps a name, it keeps it and has no value for it after that was taken
away, also when one more call has been left. -/
lemma KeepsName.unset_pop (h : KeepsName s.current name 1 s) :
    (s.unset name).pop.redirectAt? s.current name = none ∧
      (s.unset name).pop.bindingAt? s.current name = none := by
  have there := h.there
  have same : (s.unset name).current = s.current := s.current_modifyScope _ _
  have forwards : (s.unset name).redirectAt? s.current name = s.redirectAt? s.current name :=
    s.redirectAt?_modifyScope fun _ _ => rfl
  have kept := forwards.trans h.kept
  have gone := get?_unset s name
  rw [get?_of_kept (by rw [same, kept]), same] at gone
  have left : (s.unset name).pop.scopeAt s.current = (s.unset name).scopeAt s.current := by
    have depth : (s.unset name).depth = s.depth := s.depth_modifyScope _ _
    rw [scopeAt_pop, depth, if_pos (by omega)]
  rw [redirectAt?, bindingAt?, left]
  exact ⟨kept, gone⟩

end ScopeStack

/-- A change leaves the name where it is kept, unless it forwards it in this very scope. -/
lemma Context.keepsName_update {c : Context} {number above : Nat} {name : String}
    (h : c.scopes.KeepsName number name above) {change : Update}
    (keeps : c.scopes.current = number → change.forwarded? ≠ some name) :
    (c.update change).scopes.KeepsName number name above where
  there := by
    rw [depth_update]
    exact h.there
  kept := by
    have there := h.there
    have below : number ≤ c.scopes.depth := by omega
    have applied : ∀ operation : ScopeStack.Operation,
        (operation.apply c.scopes).depth = c.scopes.depth →
        (number = c.scopes.current → ¬ operation.Redeclares name) →
        (operation.apply c.scopes).redirectAt? number name = none := by
      intro operation depth keeps
      rw [ScopeStack.redirectAt?_apply (by rw [depth]; exact below) keeps, h.kept]
    have depth := c.depth_update change
    cases change with
    | set other value => exact applied (.set other value) depth fun _ => id
    | unset other => exact applied (.unset other) depth fun _ => id
    | declareGlobal other =>
      exact applied (.declareGlobal other) depth fun here same => keeps here.symm (congrArg some same)
    | declareNonlocal other =>
      exact applied (.declareNonlocal other) depth fun here same => keeps here.symm (congrArg some same)
    | setChain isOpen =>
      have same := ScopeStack.map_modifyParent (g := Frame.scope) (f := (·.setChain isOpen))
        (fun _ => rfl) c.scopes
      exact (ScopeStack.redirectAt?_congr same number name).trans h.kept
    | leave result =>
      rw [update]
      cases e : c.scopes.setResult? result with
      | none => exact h.kept
      | some scopes =>
        obtain ⟨i, -, rfl⟩ := Option.map_eq_some_iff.1 e
        have same := ScopeStack.map_modifyAbove (g := Frame.scope)
          (f := fun f => { f with result := some result }) (fun _ => rfl) c.scopes i
        exact (ScopeStack.redirectAt?_congr same number name).trans h.kept
    | stop => exact h.kept
    | define definition => exact h.kept

namespace Evaluation

/-- Whatever a run does that forwards nothing keeps the name. -/
lemma Passage.keepsName {change : Context → Context} (passage : Passage change) {c : Context}
    {number above : Nat} {name : String} (h : c.scopes.KeepsName number name above) :
    (change c).scopes.KeepsName number name above :=
  passage.induction (fun _ name value h => h.bindLocal name value) (fun _ h => h.congr rfl) h

end Evaluation

/-- Unless it was said of the name that it leads elsewhere, the scope keeps it. -/
def State.Withholds (number : Nat) (name : String) (above : Nat) (s : State (Recorded σ)) : Prop :=
  (∀ moment ∈ s.host.moments, ¬ moment.Declares number name) →
    s.context.scopes.KeepsName number name above

namespace Evaluation

variable {invariant : State (Recorded σ) → Prop} {number more : Nat} {name : String}

/-- A change of the context maintains what it keeps. -/
lemma Maintains.modify {change : Context → Context}
    (keeps : ∀ s, invariant s → invariant { s with context := change s.context }) :
    Maintains invariant (Evaluation.modify change) (Evaluation.modify change) := by
  intro s result s' e h
  cases e
  exact keeps s h

/-- What a handler keeps by its changes, and the body and the arguments of its call by themselves, is
kept. -/
lemma Maintains.ofAction (invariant : State (Recorded σ) → Prop) {same : Context → Context → Prop}
    {allowed : Update → Prop} {runs : Prop}
    {body : Evaluation (Recorded σ) Unit} {arguments : Evaluation (Recorded σ) (List String)}
    {rounds : Nat} {action : Action σ α} (h : action.Confined same allowed runs)
    (bodies : runs → Maintains invariant body body)
    (rereads : runs → Maintains invariant arguments arguments)
    (updates : ∀ change, allowed change → ∀ s, invariant s →
      invariant { s with context := s.context.update change })
    (hosts : ∀ host s, invariant s → invariant { s with host := { s.host with host := host } }) :
    Maintains invariant (ofAction body arguments rounds action.recorded)
      (ofAction body arguments rounds action.recorded) := by
  induction h with
  | done answer => exact (Maintains.monadic invariant).pure answer
  | raise error => exact (Maintains.monadic invariant).raise error
  | inspect _ _ ih => exact (Maintains.monadic invariant).context ih
  | update may _ ih =>
    exact (Maintains.monadic invariant).bind (.modify fun s => updates _ may s) fun _ => ih
  | readHost _ ih => exact fun s => ih s.host.host s
  | writeHost host _ ih =>
    exact fun s result s' e start => ih _ result s' e (hosts host s start)
  | @runBody rest may _ ih =>
    intro s result s' e start
    obtain ⟨inner, s₁, ran, left⟩ := attempt_bind_eq_some.1 e
    exact ih _ s₁ result s' left (bodies may s inner s₁ ran start)
  | @rereadArgs rest may _ ih =>
    intro s result s' e start
    obtain ⟨inner, s₁, reread, left⟩ := attempt_bind_eq_some.1 e
    exact ih _ s₁ result s' left (rereads may s inner s₁ reread start)
  | rounds _ ih => exact ih rounds
  | exhausted => exact fun _ _ _ e => nomatch e

/-- With any number of frames above the one with this number, and so many more, the evaluation leaves
the name to the scope of that frame. -/
def Withholding (number : Nat) (name : String) (more : Nat) : Relation (Recorded σ) (Recorded σ) :=
  fun _ x y => ∀ above, Maintains (State.Withholds number name (above + more)) x y

namespace Withholding

/-- Values and errors withhold the name, and so do evaluations in turn. -/
lemma monadic : Relation.Monadic (Withholding (σ := σ) number name more) where
  pure value _ := (Maintains.monadic _).pure value
  raise error _ := (Maintains.monadic _).raise error
  bind hx hf above := (Maintains.monadic _).bind (hx above) fun value => hf value above
  context hf above s := hf s.context above s

/-- A note withholds the name. -/
lemma notify (it : Interpreter σ) (event : Event) :
    Withholding number name more (Evaluation.notify it.recorded.observe event)
      (Evaluation.notify it.recorded.observe event) := by
  intro above s result s' e h
  cases e
  exact fun silent => h fun moment mem => silent moment (List.mem_append_left _ mem)

/-- So does what is done around a call. -/
lemma framed (number : Nat) (name : String) (more : Nat) (it : Interpreter σ) :
    Relation.Framed (Withholding number name 0) (Withholding number name more) it.recorded
      it.recorded where
  outside := monadic.toSequential
  inside := monadic.toSequential
  fail fault := monadic.raise (.ofFault fault)
  enter h above := h (above + more)
  notify := notify it
  passage h _ := Maintains.modify fun _ kept silent => h.keepsName (kept silent)

/-- The frame of a call is left again. -/
lemma inFrame {x y : Evaluation (Recorded σ) α} (h : Withholding number name 1 x y)
    (call : ActiveCall) (owns : Bool) :
    Withholding number name 0 (inFrame (.ofCall call owns) x)
      (Evaluation.inFrame (.ofCall call owns) y) := by
  intro above s result s' e start
  obtain ⟨inner, s₁, ran, rfl, -⟩ := inFrame_cases e
  have ended := h above _ _ _ ran fun silent => (start silent).push call owns
  exact fun silent => (ended silent).pop

end Withholding

end Evaluation

open Evaluation

namespace Interpreter

variable {it : Interpreter σ} {random : Slot σ γ} {streams : Slot σ Streams} {number : Nat}
  {name : String}

/-- A call that says where a name leads is told of, if it is made in the scope, and cannot reach the
scope, if it is made elsewhere. It runs nothing. -/
lemma declaring_withholds {handler : Handler σ} {call : ActiveCall}
    (declares : (Event.handler call).Declares name) {same : Context → Context → Prop}
    {allowed : Update → Prop} {run : Node Token → Evaluation (Recorded σ) Unit}
    {expand : Expand (Recorded σ)} {site : CallSite}
    (quiet : (handler.invoke ⟨call, site.node, site.body⟩).Confined same allowed False)
    (rounds : Nat) :
    Withholding number name 1 (it.recorded.handle run expand rounds site call handler.recorded)
      (it.recorded.handle run expand rounds site call handler.recorded) := by
  intro above s result s' e start silent
  change ofAction _ _ _ _ (it.note (.handler call) s) = _ at e
  by_cases here : s.context.scopes.current = number
  · -- the call was told of before the handler began
    have told := Maintains.ofAction
      (fun t : State (Recorded σ) => ⟨.handler call, s.context⟩ ∈ t.host.moments) quiet
      nofun nofun (fun _ _ _ => id) (fun _ _ => id) _ _ _ e
      (List.mem_append_right _ (List.mem_singleton.2 rfl))
    exact absurd ⟨declares, here⟩ (silent _ told)
  · have kept := Maintains.ofAction
      (fun t : State (Recorded σ) =>
        t.Withholds number name (above + 1) ∧ t.context.scopes.current ≠ number) quiet
      nofun nofun (fun change _ t h => ?_) (fun _ _ => id) _ _ _ e ⟨?_, here⟩
    · exact kept.1 silent
    · have shape := t.context.shape_update change
      refine ⟨fun silent => Context.keepsName_update (h.1 silent) fun elsewhere => ?_, ?_⟩
      · exact absurd elsewhere h.2
      · rw [ScopeStack.current_eq_of_shape shape]
        exact h.2
    · exact fun silent => start fun moment mem => silent moment (List.mem_append_left _ mem)

/-- A handler leaves the name to the scope, unless its call was told of. -/
lemma handle_withholds {handler : Handler σ} {kind : CallKind}
    (serves : Scoped name random streams kind handler)
    {run : Node Token → Evaluation (Recorded σ) Unit} {expand : Expand (Recorded σ)}
    (runs : ∀ node, Withholding number name 0 (run node) (run node))
    (expands : ∀ origin called args,
      Withholding number name 0 (expand origin called args) (expand origin called args))
    (rounds : Nat) (site : CallSite) {call : ActiveCall} (same : call.kind = kind) :
    Withholding number name 1 (it.recorded.handle run expand rounds site call handler.recorded)
      (it.recorded.handle run expand rounds site call handler.recorded) := by
  have framed := Withholding.framed number name 1 it
  have bodies := runBody_rel framed runs site call.name
  have rereads := Word.arguments_rel framed.outside expands site.args
  -- a call that does not say it of the name may run what it will
  have harmless : (handler.invoke ⟨call, site.node, site.body⟩).Confined (· = ·)
      (fun change => change.forwarded? ≠ some name) True →
      Withholding number name 1 (it.recorded.handle run expand rounds site call handler.recorded)
        (it.recorded.handle run expand rounds site call handler.recorded) := by
    intro confined
    refine handle_rel framed fun above => Maintains.ofAction _ confined (fun _ => bodies above)
      (fun _ => framed.enter rereads above) (fun change keeps s start silent => ?_) fun _ _ => id
    exact Context.keepsName_update (start silent) fun _ => keeps
  rcases serves with standard | still
  · have confined := standard.forwards_arguments ⟨call, site.node, site.body⟩ same
    by_cases declares : (Event.handler call).Declares name
    · have command : kind = .command := same.symm.trans declares.1.1
      have never : kind = .control → False := by
        rw [command]
        exact nofun
      have quiet := (standard.confined ⟨call, site.node, site.body⟩).mono (fun _ _ => id)
        (fun _ => id) never
      exact declaring_withholds declares quiet rounds
    · refine harmless (confined.mono (fun _ _ => id) (fun change named forwarded => ?_) id)
      exact declares (named name forwarded)
  · exact harmless (still _)

/-- All that a run does leaves the name to the scope, unless a call that says where the name leads was
told of. -/
lemma run_withholds (uses : it.Uses (Scoped name random streams)) (number : Nat) (fuel : Nat) :
    (∀ node, Withholding number name 0 (it.recorded.runNode fuel node) (it.recorded.runNode fuel node)) ∧
      ∀ origin called args, Withholding number name 0 (it.recorded.expand fuel origin called args)
        (it.recorded.expand fuel origin called args) := by
  have framed := Withholding.framed number name 1 it
  have all := run_rel it.recorded it.recorded framed.outside 0 ?_ ?_ ?_ ?_ fuel
  · rwa [Nat.zero_add] at all
  · refine step_rel framed.outside rfl (fun above => ?_) (Withholding.notify it)
    exact Maintains.modify fun _ => id
  · intro above
    exact Maintains.modify fun _ start silent => (start silent).congr rfl
  · intro fuel runs expands site name args
    rw [Nat.zero_add] at runs expands ⊢
    refine serve_rel framed.outside rfl fun definition => Withholding.inFrame ?_ _ _
    refine dispatch_rel framed runs definition (handlers_rel uses fun handler serves => ?_)
    exact handle_withholds serves runs expands fuel site rfl
  · exact ⟨fun _ _ _ _ _ h => (nomatch h), fun _ _ _ _ _ _ _ h => (nomatch h)⟩

/-- A loop over items goes through them and then takes its variable away. -/
lemma forIn_eq {call : Call} {items : List String} (args : call.args = name :: "in" :: items) :
    (Library.forIn call : Action σ _) =
      Library.forItems name items >>= fun _ => Action.change (.unset name) >>= fun _ => pure none := by
  have enough : call.requireMinArgs 2 = .ok () := by
    rw [Call.requireMinArgs, args]
    exact if_pos (Nat.le_add_left 2 items.length)
  rw [Library.forIn, enough, args]
  rfl

/-- Behind the items, however they were gone through, the scope still keeps the name. -/
lemma forItems_withholds (uses : it.Uses (Scoped name random streams)) (fuel : Nat) (site : CallSite)
    (called : String) (items : List String) :
    Withholding number name 1
      (ofAction (runBody (it.recorded.runNode fuel) site called)
        (Word.arguments (it.recorded.expand fuel) site.args) fuel
        (Library.forItems name items : Action σ Unit).recorded)
      (ofAction (runBody (it.recorded.runNode fuel) site called)
        (Word.arguments (it.recorded.expand fuel) site.args) fuel
        (Library.forItems name items : Action σ Unit).recorded) := by
  have framed := Withholding.framed number name 1 it
  obtain ⟨runs, expands⟩ := run_withholds uses number fuel
  have bodies := runBody_rel framed runs site called
  have rereads := Word.arguments_rel framed.outside expands site.args
  intro above
  refine Maintains.ofAction _ (Library.forItems_steps (Action.Confined.stepwise _ _) name items)
    (fun _ => bodies above)
    (fun _ => framed.enter rereads above) (fun change made s start silent => ?_) fun _ _ => id
  have silent_call : ¬ (⟨"for", .control, [], .origin⟩ : ActiveCall).Forwards :=
    fun forwards => nomatch forwards.1
  have sets : ¬ change.Forwards := MadeBy.not_forwards silent_call made
  refine Context.keepsName_update (start silent) fun _ => ?_
  rw [Update.forwarded?_of_not_forwards sets]
  exact nofun

/-- When a loop over items has ended well, its variable has no value in the scope in which it ran,
whatever the body has done with it, if that scope kept the name to itself when the loop began and
nothing was called in it meanwhile that says of the name that it leads elsewhere. -/
theorem loop_variable_is_gone (uses : it.Uses (Scoped name random streams))
    (serving : Chain.handlerFor? (it.registry.chain .control) "for" =
      some Library.controls.toHandler)
    {fuel : Nat} {site : CallSite} (control : site.kind = .control) {items : List String}
    {s s' : State σ} {value : String} (goes_on : s.context.flow ≠ .stopped)
    (kept : s.context.scopes.redirectAt? s.context.scopes.current name = none)
    (silent : ∀ moment ∈ (it.recorded.serve (it.recorded.runNode fuel) (it.recorded.expand fuel) fuel
      site "for" (name :: "in" :: items)).momentsFrom s,
        ¬ moment.Declares s.context.scopes.current name)
    (served : it.serve (it.runNode fuel) (it.expand fuel) fuel site "for" (name :: "in" :: items) s =
      some (.ok value, s')) :
    s'.context.scopes.current = s.context.scopes.current ∧
      s'.context.scopes.bindingAt? s.context.scopes.current name = none ∧
      s'.context.get? name = none := by
  obtain ⟨runs, expands⟩ := it.run_forgets fuel
  have recorded := (it.serve_forgets runs expands site "for" (name :: "in" :: items)).exists_recorded
    served
  rcases serve_ok recorded with ⟨stopped, -⟩ | ⟨-, answer, -, framed⟩
  · exact absurd stopped goes_on
  obtain ⟨s₁, dispatched, left⟩ := inFrame_ok framed
  have none : s.recorded.context.definition? site.kind "for" = none := by
    rw [control]
    rfl
  rw [none] at dispatched
  rcases dispatch_recorded_cases dispatched with ⟨fault, failed, -⟩ | ⟨handler, found, handled⟩
  · cases failed
  rw [control, serving] at found
  obtain rfl := Option.some.inj found
  let call : ActiveCall := ⟨"for", site.kind, name :: "in" :: items, site.location⟩
  let pushed := withScopes (·.push (.ofCall call false)) s.recorded
  have loops : (Library.controls : Callbacks σ).find? "for" = some Library.forIn := rfl
  change ofAction _ _ _ (Library.controls.toHandler.invoke ⟨call, site.node, site.body⟩).recorded
    (it.note (.handler call) pushed) = _ at handled
  rw [Callbacks.invoke_of_find? loops, forIn_eq rfl, Action.recorded_bind, ofAction_bind] at handled
  obtain ⟨_, s₂, looped, ended⟩ := bind_ok handled
  cases ended
  -- the calls in progress are those there were, so the current scope is the one of the start
  obtain ⟨runs_keep, expands_keep⟩ := run_keeps it.recorded fuel
  have shape : s₂.context.scopes.shape = (it.note (.handler call) pushed).context.scopes.shape :=
    Keeps.ofAction (runBody_keeps runs_keep site call.name) (arguments_keeps expands_keep site.args) _
      _ _ _ looped
  have current : s₂.context.scopes.current = s.context.scopes.current :=
    (ScopeStack.current_eq_of_shape shape).trans (s.context.scopes.current_push call false)
  have start : s.context.scopes.KeepsName s.context.scopes.current name 0 :=
    ⟨s.context.scopes.current_le_depth, kept⟩
  have withheld := forItems_withholds uses fuel site call.name items 0 _ _ _ looped
    fun _ => start.push call false
  have scopes : s'.context.scopes = (s₂.context.scopes.unset name).pop :=
    congrArg (fun t => t.context.scopes) left
  have moments : _ = s₂.host.moments := congrArg (fun t => t.host.moments) left
  have last : s₂.context.scopes.KeepsName s.context.scopes.current name 1 :=
    withheld fun moment mem => silent moment ((congrArg (moment ∈ ·) moments).mpr mem)
  rw [← current] at last
  obtain ⟨kept_last, gone⟩ := last.unset_pop
  rw [← scopes, current] at kept_last gone
  have ended : s'.context.scopes.shape = s.context.scopes.shape := by
    rw [scopes]
    exact ScopeStack.shape_pop ((ScopeStack.shape_modifyScope _ _ _).trans shape)
  have back : s'.context.scopes.current = s.context.scopes.current :=
    ScopeStack.current_eq_of_shape ended
  rw [← back] at kept_last gone ⊢
  exact ⟨rfl, gone, (ScopeStack.get?_of_kept kept_last).trans gone⟩

/-- A body that sets the variable of the loop around it and takes it away, and loops over the same
variable. -/
def busyBody : Statement Token :=
  let word (content : String) : Word Token := .literal default content
  .block default
    [.command (word "set") [word "x", word "other"], .command (word "unset") [word "x"],
      .control default (word "for") [word "x", word "in", word "c"] (.command (word "stop") [])]

/-- The variable is gone behind the loop, which the body has stopped in its first round. -/
theorem busyBody_leaves_nothing :
    let it := Console.interpreter
    let site : CallSite := ⟨.control, .literal default "for", [], some busyBody,
      .statement busyBody, .origin⟩
    ∃ s', it.serve (it.runNode 4) (it.expand 4) 4 site "for" ["x", "in", "a", "b"]
        ⟨.initial, Console.start [] 0⟩ = some (.ok "", s') ∧
      s'.context.get? "x" = none ∧ s'.context.isStopped := by
  intro it site
  have outcome : (it.serve (it.runNode 4) (it.expand 4) 4 site "for" ["x", "in", "a", "b"]
      ⟨.initial, Console.start [] 0⟩).map (fun ended => (ended.1.toOption, ended.2.context.isStopped)) =
      some (some "", true) := by
    decide +kernel
  obtain ⟨⟨_ | _, s'⟩, served, same⟩ := Option.map_eq_some_iff.1 outcome
  · cases same
  · obtain ⟨value, stopped⟩ := Prod.mk.inj same
    cases value
    have uses : it.Uses (Scoped "x" Console.generator Console.streams) :=
      Console.interpreter_uses.mono fun _ _ => .inl
    obtain ⟨-, -, gone⟩ := loop_variable_is_gone uses rfl rfl (by decide) rfl (by decide +kernel) served
    exact ⟨s', served, gone, stopped⟩

/-- If the body fails, the variable keeps its value. -/
theorem failing_body_leaves_variable :
    let word (content : String) : Word Token := .literal default content
    let loop : Node Token := .statement (.control default (word "for") [word "x", word "in", word "a"]
      (.command (word "lost") []))
    (Console.interpreter.runPiece loop ⟨.initial, Console.start [] 0⟩).map
        (fun ended => (ended.1.isOk, ended.2.context.get? "x")) = some (false, some "a") := by
  decide +kernel

end Interpreter

end Scriptlet
