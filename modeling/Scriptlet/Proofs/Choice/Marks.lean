import Scriptlet.Proofs.Evaluation.Changes
import Scriptlet.Proofs.Library.Standard

/-!
# The marks of else-chains

A frame counts the statements started in it and marks the one that left its chain open. Nothing that
runs above a frame touches its mark but the control calls made right in it, and evaluating words
touches no mark at all (`run_leaves`).
-/

namespace Scriptlet

variable {σ α β γ : Type} [RandomSource γ]

open Evaluation

/-- How many statements a frame has counted, and which of them left its chain open. -/
def Frame.mark (f : Frame) : Nat × Option Nat :=
  (f.statements, f.openChain)

/-- The mark of a frame is no part of its scope. -/
lemma Frame.mark_mapScope (f : Scope → Scope) (frame : Frame) :
    (frame.mapScope f).mark = frame.mark := rfl

namespace ScopeStack

/-- The marks of the frames, innermost first. -/
def marks (s : ScopeStack) : List (Nat × Option Nat) :=
  s.toList.map Frame.mark

/-- Every frame has a mark. -/
@[simp]
lemma length_marks (s : ScopeStack) : s.marks.length = s.depth + 1 := by
  simp [marks]

/-- A call that is entered brings its mark. -/
@[simp]
lemma marks_push (s : ScopeStack) (f : Frame) : (s.push f).marks = f.mark :: s.marks := rfl

/-- A call that is left takes its mark along. -/
lemma marks_pop {s : ScopeStack} (inside : 0 < s.depth) : s.pop.marks = s.marks.drop 1 := by
  rcases s with ⟨top, _ | ⟨f, rest⟩⟩
  · cases inside
  · rfl

/-- The frames are as many, and all but so many of the innermost have the same marks. -/
structure Agree (n : Nat) (s t : ScopeStack) : Prop where
  depth : s.depth = t.depth
  marks : s.marks.drop n = t.marks.drop n

namespace Agree

variable {m n : Nat} {s t u : ScopeStack}

/-- A stack agrees with itself. -/
lemma refl (n : Nat) (s : ScopeStack) : Agree n s s :=
  ⟨rfl, rfl⟩

/-- Agreement from the same frame on is handed on. -/
lemma trans (h : Agree n s t) (h' : Agree n t u) : Agree n s u :=
  ⟨h.depth.trans h'.depth, h.marks.trans h'.marks⟩

/-- Who agrees from a frame on agrees from those below it on. -/
lemma mono (le : m ≤ n) (h : Agree m s t) : Agree n s t := by
  refine ⟨h.depth, ?_⟩
  have more := congrArg (List.drop (n - m)) h.marks
  rwa [List.drop_drop, List.drop_drop, Nat.add_sub_cancel' le] at more

/-- Stacks with the same marks agree everywhere. -/
lemma of_marks (h : s.marks = t.marks) : Agree 0 s t := by
  refine ⟨?_, h⟩
  have lengths := congrArg List.length h
  simpa using lengths

/-- Of one frame less the marks may differ when the innermost one is left. -/
lemma pop {frame : Frame} (h : Agree (n + 1) s (t.push frame)) : Agree n s.pop t := by
  have inside : 0 < s.depth := by
    rw [h.depth, depth_push]
    exact Nat.succ_pos _
  refine ⟨?_, ?_⟩
  · rw [depth_pop, h.depth, depth_push, Nat.add_sub_cancel]
  · rw [marks_pop inside, List.drop_drop, Nat.add_comm, h.marks, marks_push, List.drop_succ_cons]

/-- If all marks are the same, those of the innermost frames are. -/
lemma top (h : Agree 0 s t) : s.top.mark = t.top.mark :=
  (List.cons.inj h.marks).1

end Agree

/-- A change of the innermost frame is seen in none below it. -/
lemma agree_modifyTop (s : ScopeStack) (f : Frame → Frame) : Agree 1 (s.modifyTop f) s :=
  ⟨rfl, rfl⟩

/-- A change of the frame around a call is seen in none below that. -/
lemma agree_modifyParent (s : ScopeStack) (f : Frame → Frame) : Agree 2 (s.modifyParent f) s := by
  rcases s with ⟨top, _ | ⟨p, rest⟩⟩ <;> exact ⟨rfl, rfl⟩

end ScopeStack

open ScopeStack

namespace Context

/-- Only opening and closing chains changes a mark. -/
lemma agree_update (c : Context) {change : Update} (other : ∀ isOpen, change ≠ .setChain isOpen) :
    Agree 0 (c.update change).scopes c.scopes :=
  .of_marks (c.map_update Frame.mark_mapScope change (fun _ _ _ => rfl) fun isOpen same =>
    (other isOpen same).elim)

/-- An assignment is seen in no mark. -/
lemma agree_set (c : Context) (name value : String) :
    Agree 0 (c.update (.set name value)).scopes c.scopes := by
  refine c.agree_update ?_
  exact nofun

/-- A chain is opened and closed in the frame around the call. -/
lemma agree_update_two (c : Context) (change : Update) :
    Agree 2 (c.update change).scopes c.scopes := by
  cases change with
  | setChain isOpen => exact agree_modifyParent c.scopes (·.setChain isOpen)
  | _ => exact Agree.mono (Nat.zero_le 2) (c.agree_update fun _ same => nomatch same)

end Context

namespace Evaluation

/-- However the evaluation ends, all frames but so many of the innermost keep their marks. -/
def Leaves (n : Nat) (x : Evaluation σ α) : Prop :=
  ∀ s result s', x s = some (result, s') → Agree n s'.context.scopes s.context.scopes

/-- `Leaves`, of one of two evaluations. -/
def Leaving (n : Nat) : Relation σ σ := fun _ x _ =>
  Leaves n x

namespace Leaves

variable {m n : Nat} {x : Evaluation σ α}

/-- What leaves more marks alone leaves fewer alone. -/
lemma mono (le : m ≤ n) (h : Leaves m x) : Leaves n x :=
  fun s result s' e => (h s result s' e).mono le

/-- What both parts of an evaluation leave alone, the evaluation does. -/
lemma bind {f : α → Evaluation σ β} (hx : Leaves n x) (hf : ∀ value, Leaves n (f value)) :
    Leaves n (x >>= f) := by
  intro s result s' e
  rcases bind_cases e with ⟨value, s₁, first, rest⟩ | ⟨error, first, -⟩
  · exact (hf value _ _ _ rest).trans (hx _ _ _ first)
  · exact hx _ _ _ first

/-- What does not touch the context touches no marks. -/
lemma of_untouched (same : ∀ s, ∃ result host, x s = some (result, ⟨s.context, host⟩)) :
    Leaves n x := by
  intro s result s' e
  obtain ⟨_, host, untouched⟩ := same s
  cases untouched.symm.trans e
  exact .refl n _

/-- A change leaves the marks alone that it keeps. -/
lemma modify {change : Context → Context} (keeps : ∀ c, Agree n (change c).scopes c.scopes) :
    Leaves n (Evaluation.modify change : Evaluation σ Unit) := by
  intro s result s' e
  cases e
  exact keeps s.context

/-- A failure that is taken for a result leaves alone what it left alone. -/
lemma attempt (h : Leaves n x) : Leaves n (attempt x) := by
  intro s result s' e
  obtain ⟨inner, ended, -⟩ := attempt_cases e
  exact h _ _ _ ended

/-- Around a call one frame less may be touched than in it. -/
lemma inFrame (h : Leaves (n + 1) x) (frame : Frame) : Leaves n (inFrame frame x) := by
  intro s result s' e
  obtain ⟨inner, s₁, first, rfl, -⟩ := inFrame_cases e
  exact (h _ _ _ first).pop

end Leaves

namespace Leaving

variable {n : Nat}

/-- Leaving marks alone is handed on through the parts of an evaluation. -/
lemma monadic (n : Nat) : Relation.Monadic (Leaving (σ := σ) n) where
  pure value := Leaves.of_untouched fun s => ⟨.ok value, s.host, rfl⟩
  raise error := Leaves.of_untouched fun s => ⟨.error error, s.host, rfl⟩
  bind := Leaves.bind
  context hf := Leaves.bind (Leaves.of_untouched fun s => ⟨.ok s.context, s.host, rfl⟩) hf

/-- To be told of something leaves the marks alone. -/
lemma notify (it : Interpreter σ) (event : Event) :
    Leaving n (Evaluation.notify it.observe event) (Evaluation.notify it.observe event) :=
  Leaves.of_untouched fun s => ⟨.ok (), it.observe event s.context s.host, rfl⟩

/-- Definitions and handlers find a frame more than there is around them. -/
lemma framed (it : Interpreter σ) (n : Nat) :
    Relation.Framed (Leaving 1) (Leaving (n + 1)) it it where
  outside := (monadic 1).toSequential
  inside := (monadic (n + 1)).toSequential
  fail fault := (monadic (n + 1)).raise (.ofFault fault)
  enter h := Leaves.mono (Nat.le_add_left 1 n) h
  notify event := notify it event
  passage h := Leaves.modify fun c => Agree.mono (Nat.zero_le _)
    (.of_marks (h.map Frame.mark_mapScope (fun _ _ => rfl) c))

end Leaving

/-- An action touches the marks that its changes and what it runs touch. -/
lemma Leaves.ofAction {n rounds m : Nat} {allowed : Update → Prop} {body : Evaluation σ Unit}
    {arguments : Evaluation σ (List String)} (bodies : Leaves n body)
    (rereads : Leaves n arguments)
    (changes : ∀ change, allowed change → ∀ c : Context, Agree n (c.update change).scopes c.scopes)
    {a b : Action σ α} (h : Action.CutShort allowed m a b) :
    Leaves n (ofAction body arguments rounds a) := by
  induction h with
  | done answer => exact (Leaving.monadic n).pure answer
  | raise error => exact (Leaving.monadic n).raise error
  | inspect _ ih => exact fun s => ih s.context s
  | update may _ ih => exact bind (modify (changes _ may)) fun _ => ih
  | readHost _ ih => exact fun s => ih s.host s
  | writeHost host _ ih => exact fun s => ih { s with host := host }
  | @runBody _ f _ failed _ _ ih =>
    refine bind bodies.attempt fun result => ?_
    cases result with
    | ok value => exact ih
    | error error =>
      rw [error?, failed]
      exact (Leaving.monadic n).raise error
  | @rereadArgs _ f _ failed _ _ ih =>
    refine bind rereads.attempt fun result => ?_
    cases result with
    | ok args => exact ih args
    | error error =>
      rw [failed]
      exact (Leaving.monadic n).raise error
  | rounds _ ih => exact ih rounds rounds (Nat.le_refl _)
  | exhausted b =>
    intro s result s' e
    cases e

end Evaluation

namespace Interpreter

variable {it : Interpreter σ} {random : Slot σ γ} {streams : Slot σ Streams}
  {run : Node Token → Evaluation σ Unit} {expand : Expand σ} {rounds : Nat} {site : CallSite}

section

variable (runs : ∀ node, Leaves 1 (run node))
  (expands : ∀ origin name args, Leaves 0 (expand origin name args))
include runs expands

/-- A call touches the marks that the changes of its handlers touch, and that of its own frame. -/
lemma dispatch_leaves (uses : it.Uses (Standard random streams)) {n : Nat} {call : ActiveCall}
    (changes : ∀ change, MadeBy call.kind call.name change →
      ∀ c : Context, Agree (n + 1) (c.update change).scopes c.scopes)
    (definition : Option Definition) :
    Leaves (n + 1) (it.dispatch run expand rounds site definition call) := by
  have framed := Leaving.framed it n
  show Leaving (n + 1) (it.dispatch run expand rounds site definition call)
    (it.dispatch run expand rounds site definition call)
  refine dispatch_rel framed runs definition (handlers_self uses fun handler standard => ?_)
  have plain := standard.plain ⟨call, site.node, site.body⟩
  have bodies : Leaving (n + 1) (runBody run site call.name) (runBody run site call.name) :=
    runBody_rel framed runs site call.name
  have rereads : Leaving 0 (Word.arguments expand site.args) (Word.arguments expand site.args) :=
    Word.arguments_rel (Leaving.monadic 0).toSequential expands site.args
  refine handle_rel framed (Leaves.ofAction bodies ?_ changes (plain.orderly 0))
  exact Leaves.mono (Nat.zero_le _) rereads

/-- The frames below the one around a call keep their marks, and that one does as well if its chain
cannot be changed. -/
lemma serve_leaves (uses : it.Uses (Standard random streams)) {n : Nat}
    (changes : ∀ name change, MadeBy site.kind name change →
      ∀ c : Context, Agree (n + 1) (c.update change).scopes c.scopes)
    (name : String) (args : List String) :
    Leaves n (it.serve run expand rounds site name args) := by
  show Leaving n (it.serve run expand rounds site name args)
    (it.serve run expand rounds site name args)
  refine serve_rel (Leaving.monadic n).toSequential rfl fun definition => Leaves.inFrame ?_ _
  exact dispatch_leaves runs expands uses (changes name) definition

/-- A call leaves the marks of all frames alone, if its handler leaves those below its own alone. -/
lemma call_leaves (uses : it.Uses (Standard random streams))
    (changes : ∀ name change, MadeBy site.kind name change →
      ∀ c : Context, Agree 1 (c.update change).scopes c.scopes) :
    Leaves 0 (it.call run expand rounds site) := by
  show Leaving 0 (it.call run expand rounds site) (it.call run expand rounds site)
  exact call_rel (Leaving.monadic 0).toSequential expands (serve_leaves runs expands uses changes)

/-- What a piece of a script does leaves the marks below its frame alone. -/
lemma perform_leaves (uses : it.Uses (Standard random streams)) (node : Node Token) :
    Leaves 1 (it.perform run expand rounds node) := by
  show Leaving 1 (it.perform run expand rounds node) (it.perform run expand rounds node)
  refine perform_rel (Leaving.monadic 1).toSequential runs (fun origin name args => ?_)
    (fun site name args => ?_) node
  · exact Leaves.mono (Nat.zero_le 1) (expands origin name args)
  · exact serve_leaves runs expands uses (fun _ change _ c => c.agree_update_two change) name args

end

/-- A step leaves the marks alone. -/
lemma step_leaves {n : Nat} (location : Location) : Leaves n (it.step location) := by
  show Leaving n (it.step location) (it.step location)
  exact step_rel (Leaving.monadic n).toSequential rfl (Leaves.modify fun c => .refl n c.scopes)
    (Leaving.notify it) location

/-- Only control calls change chains. -/
lemma agree_of_madeBy {kind : CallKind} (other : kind ≠ .control) {name : String} {change : Update}
    (made : MadeBy kind name change) (c : Context) :
    Agree 0 (c.update change).scopes c.scopes := by
  refine c.agree_update fun isOpen same => other ?_
  subst same
  simp only [MadeBy, Update.makers, List.mem_cons, List.not_mem_nil, or_false, Prod.mk.injEq] at made
  rcases made with ⟨control, -⟩ | ⟨control, -⟩ | ⟨control, -⟩ <;> exact control

/-- A statement touches no mark but that of the frame it is run in, and an expansion touches none. -/
theorem run_leaves (uses : it.Uses (Standard random streams)) (fuel : Nat) :
    (∀ node, Leaves 1 (it.runNode fuel node)) ∧
      ∀ origin name args, Leaves 0 (it.expand fuel origin name args) := by
  induction fuel with
  | zero =>
    refine ⟨?_, ?_⟩
    · intro node s result s' e
      cases e
    · intro origin name args s result s' e
      cases e
  | succ fuel ih =>
    obtain ⟨runs, expands⟩ := ih
    refine ⟨fun node => ?_, fun origin name args => ?_⟩
    · rw [runNode]
      refine (step_leaves _).bind fun _ => Leaves.bind ?_ fun _ => perform_leaves runs expands uses _
      exact Leaves.modify fun c => agree_modifyTop c.scopes _
    · rw [Interpreter.expand]
      refine (step_leaves _).bind fun _ => call_leaves runs expands uses fun name change made c => ?_
      have same : Agree 0 (c.update change).scopes c.scopes := by
        refine agree_of_madeBy ?_ made c
        show CallKind.expansion ≠ .control
        decide
      exact same.mono (Nat.zero_le 1)

/-- Arguments are evaluated without a change of the marks. -/
lemma arguments_leave (uses : it.Uses (Standard random streams)) (fuel : Nat)
    (words : List (Word Token)) : Leaves 0 (Word.arguments (it.expand fuel) words) := by
  show Leaving 0 (Word.arguments (it.expand fuel) words) (Word.arguments (it.expand fuel) words)
  exact Word.arguments_rel (Leaving.monadic 0).toSequential (run_leaves uses fuel).2 words

end Interpreter

end Scriptlet
