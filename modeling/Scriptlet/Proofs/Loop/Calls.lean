import Scriptlet.Proofs.Loop.Rounds

/-!
# Loops and choices as statements

What the statements `while` and `if` do with enough fuel: they evaluate their condition where they
stand, and then, if that gives one argument, what their handlers do in a frame of their own
(`runs_while`, `runs_if`).
-/

namespace Scriptlet

open Evaluation

variable {σ α β : Type}

namespace Evaluation

/-- What comes of an end when a frame is left: an error gets a place. -/
def leave (frame : Frame) : Except RuntimeError α × State σ → Except RuntimeError α × State σ
  | (.ok value, s) => (.ok value, withScopes (·.pop) s)
  | (.error error, s) =>
    (.error (error.locate frame.call.location s.context.scopes.backtrace), withScopes (·.pop) s)

/-- A frame is left however it ends. -/
lemma leave_snd (frame : Frame) (ended : Except RuntimeError α × State σ) :
    (leave frame ended).2 = withScopes (·.pop) ended.2 := by
  rcases ended with ⟨_ | value, s⟩ <;> rfl

/-- What happens in a frame ends with the frame left. -/
lemma inFrame_eq_map (frame : Frame) (x : Evaluation σ α) (s : State σ) :
    inFrame frame x s = (x (withScopes (·.push frame) s)).map (leave frame) := by
  rw [inFrame]
  rcases x (withScopes (·.push frame) s) with _ | ⟨_ | value, s₁⟩ <;> rfl

/-- What is made of the answer may be made of it in the frame. -/
lemma inFrame_bind_pure (frame : Frame) (x : Evaluation σ α) (f : α → β) :
    (inFrame frame x >>= fun value => pure (f value)) =
      inFrame frame (x >>= fun value => pure (f value)) := by
  funext s
  show andThen (inFrame frame x) _ s = inFrame frame (andThen x _) s
  rw [andThen, inFrame, inFrame, andThen]
  rcases x (withScopes (·.push frame) s) with _ | ⟨_ | value, s₁⟩ <;> rfl

end Evaluation

namespace Library

/-- What a call does that takes one argument, when it is given that or not. -/
lemma takesOne {call : Call} (next : String → Action σ α) :
    ((Action.ofExcept (call.requireArgs 1) : Action σ Unit) >>= fun _ =>
      (Action.ofExcept (call.arg 0) : Action σ String) >>= next) =
        if call.args.length = 1 then next (Text.unwords call.args)
        else .fail (.wrongArgumentCount call.name 1 call.args.length) := by
  rw [Call.requireArgs]
  split
  · rename_i one
    obtain ⟨text, args⟩ := List.length_eq_one_iff.1 one
    rw [Call.arg, args]
    rfl
  · rfl

end Library

namespace Interpreter

variable {it : Interpreter σ} {condition : List (Word Token)} {body : Statement Token}

section

variable (uses : it.Uses fun _ handler => handler.Orderly)
include uses

/-- With one argument, a `while` goes through the rounds of its loop. -/
lemma acts_whileTrue {site : CallSite} (bodied : site.body = some body) (call : Call) :
    (it.acts site "while" (Library.whileTrue call) >>= fun _ => pure ()) =
      if call.args.length = 1 then it.loops site.args body (Text.unwords call.args)
      else fail (.wrongArgumentCount call.name 1 call.args.length) := by
  rw [acts, Library.whileTrue, Library.takesOne]
  split
  · have acted : ∀ fuel, ofAction (runBody (it.recorded.runNode fuel) site "while")
        (Word.arguments (it.recorded.expand fuel) site.args) fuel
        (((.rounds fun rounds => Library.whileRounds rounds (Text.unwords call.args)) >>= fun _ =>
          pure none : Action σ (Option String))).recorded =
        it.rounds site.args body fuel fuel (Text.unwords call.args) >>= fun _ => pure none := by
      intro fuel
      rw [Action.recorded_bind, ofAction_bind, runBody, bodied]
      rfl
    simp only [acted]
    rw [enough_bind (growing_rounds uses _) fun _ => .const _, enough_const, bind_assoc]
    exact bind_pure_self _
  · exact congrArg (· >>= fun _ => pure ()) (enough_const (fail _))

/-- With one argument, an `if` opens or closes the chain around it, and runs its body if that is
true. -/
lemma acts_ifTrue {site : CallSite} (bodied : site.body = some body) (call : Call) :
    (it.acts site "if" (Library.ifTrue call) >>= fun _ => pure ()) =
      if call.args.length = 1 then
        Evaluation.modify (·.update (.setChain !Reading.isTrue (Text.unwords call.args))) >>= fun _ =>
          if Reading.isTrue (Text.unwords call.args) then it.runs (.statement body) else pure ()
      else fail (.wrongArgumentCount call.name 1 call.args.length) := by
  rw [acts, Library.ifTrue, Library.takesOne]
  split
  · generalize Text.unwords call.args = text
    have acted : ∀ fuel, ofAction (runBody (it.recorded.runNode fuel) site "if")
        (Word.arguments (it.recorded.expand fuel) site.args) fuel
        (Library.choose text >>= fun _ => pure none : Action σ (Option String)).recorded =
        Evaluation.modify (·.update (.setChain !Reading.isTrue text)) >>= fun _ =>
          (if Reading.isTrue text then it.recorded.runNode fuel (.statement body) else pure ()) >>=
            fun _ => pure none := by
      intro fuel
      rw [Library.choose]
      cases Reading.isTrue text with
      | true =>
        simp only [Action.recorded_bind, ofAction_bind, Bool.not_true, if_true, Action.recorded_body,
          ofAction_body, runBody, bodied]
        rfl
      | false => rfl
    have either : Growing fun fuel =>
        if Reading.isTrue text then it.recorded.runNode fuel (.statement body) else pure () := by
      split
      · exact growing_runNode uses _
      · exact .const _
    simp only [acted]
    rw [enough_bind (.const _) fun _ => either.bind fun _ => .const _, enough_const, bind_assoc]
    refine congrArg (_ >>= ·) (funext fun _ => ?_)
    rw [enough_bind either fun _ => .const _, enough_const, bind_assoc]
    refine (bind_pure_self _).trans ?_
    split
    · rfl
    · exact enough_const _
  · exact congrArg (· >>= fun _ => pure ()) (enough_const (fail _))

/-- A control call that has a handler is served by it with enough fuel, in a frame of its own. -/
lemma runs_served (origin named : Token) {name : String} (written : name ≠ "") {handler : Handler σ}
    (found : Chain.handlerFor? (it.registry.chain .control) name = some handler)
    {does : List String → Evaluation (Recorded σ) Unit} :
    let site := controlSite origin (.literal named name) condition body
    let called (given : List String) : ActiveCall := ⟨name, .control, given, site.location⟩
    (∀ given, (it.acts site name (handler.invoke ⟨called given, site.node, site.body⟩) >>= fun _ =>
      pure ()) = does given) →
    it.runs site.node =
      it.recorded.step site.location >>= fun _ => countStatement >>= fun _ =>
        it.reads condition >>= fun given => it.permit site.location () (inFrame (.ofCall (called given) false)
          (notify it.recorded.observe (.handler (called given)) >>= fun _ => does given)) := by
  intro site called acts
  have served : ∀ given, (it.serves site name given >>= fun _ => pure ()) =
      it.permit site.location () (inFrame (.ofCall (called given) false)
        (notify it.recorded.observe (.handler (called given)) >>= fun _ => does given)) := by
    intro given
    rw [serves_control uses (show site.kind = .control from rfl) written found given, permit_bind,
      bind_assoc, ← acts, ← bind_assoc (notify _ _)]
    exact congrArg (it.permit site.location ()) (inFrame_bind_pure _ _ fun _ => ())
  calc it.runs site.node
      _ = it.recorded.step site.location >>= fun _ => countStatement >>= fun _ =>
            it.reads condition >>= fun given => it.serves site name given >>= fun _ => pure () :=
          runs_control uses origin named name condition body
      _ = _ := by
          simp only [served]

/-- A `while` whose condition gives one argument goes through the rounds of its loop. -/
lemma runs_while (serving : Chain.handlerFor? (it.registry.chain .control) "while" =
    some Library.controls.toHandler) (origin named : Token) :
    let site := controlSite origin (.literal named "while") condition body
    let called (given : List String) : ActiveCall := ⟨"while", .control, given, site.location⟩
    it.runs site.node =
      it.recorded.step site.location >>= fun _ => countStatement >>= fun _ =>
        it.reads condition >>= fun given => it.permit site.location () (inFrame (.ofCall (called given) false)
          (notify it.recorded.observe (.handler (called given)) >>= fun _ =>
            if given.length = 1 then it.loops condition body (Text.unwords given)
            else fail (.wrongArgumentCount "while" 1 given.length))) := by
  refine runs_served uses origin named (by decide) serving fun given => ?_
  have found : (Library.controls : Callbacks σ).find? "while" = some Library.whileTrue := rfl
  rw [Callbacks.invoke_of_find? found]
  exact acts_whileTrue uses rfl _

/-- An `if` whose condition gives one argument opens or closes the chain around it, and runs its body
if that is true. -/
lemma runs_if (serving : Chain.handlerFor? (it.registry.chain .control) "if" =
    some Library.controls.toHandler) (origin named : Token) :
    let site := controlSite origin (.literal named "if") condition body
    let called (given : List String) : ActiveCall := ⟨"if", .control, given, site.location⟩
    it.runs site.node =
      it.recorded.step site.location >>= fun _ => countStatement >>= fun _ =>
        it.reads condition >>= fun given => it.permit site.location () (inFrame (.ofCall (called given) false)
          (notify it.recorded.observe (.handler (called given)) >>= fun _ =>
            if given.length = 1 then
              Evaluation.modify (·.update (.setChain !Reading.isTrue (Text.unwords given))) >>= fun _ =>
                if Reading.isTrue (Text.unwords given) then it.runs (.statement body) else pure ()
            else fail (.wrongArgumentCount "if" 1 given.length))) := by
  refine runs_served uses origin named (by decide) serving fun given => ?_
  have found : (Library.controls : Callbacks σ).find? "if" = some Library.ifTrue := rfl
  rw [Callbacks.invoke_of_find? found]
  exact acts_ifTrue uses rfl _

end

end Interpreter

end Scriptlet
