import Scriptlet.Proofs.Choice.Marks

/-!
# Choices

The branches of a choice are control calls that stand one behind the other; what makes a choice of
them is the mark that each leaves on the frame around it. As no condition and no body touches that
mark (`run_leaves`), of a choice that is gone through to its end exactly one body is run, that of the
first branch whose condition is true (`one_branch_runs`).
-/

namespace Scriptlet

open Evaluation Interpreter

variable {σ α β γ : Type} [RandomSource γ]

/-- A control call that decides whether its body is run. -/
structure Branch where
  origin : Token
  label : Token
  conditions : List (Word Token)
  body : Statement Token

/-- The control call, under a name. -/
def Branch.statement (branch : Branch) (name : String) : Statement Token :=
  .control branch.origin (.literal branch.label name) branch.conditions branch.body

/-- What going through a branch comes to: its step, its conditions and, in a frame of its own, its
body if it is chosen. Of the frame around it nothing is changed but the mark of the chain. The answer
are the texts of the conditions. -/
def Branch.pass (branch : Branch) (it : Interpreter σ) (fuel : Nat) (name : String)
    (mark : Option Nat) (chosen : Bool) : Evaluation σ (List String) := do
  let location := (Node.statement (branch.statement name)).start
  it.step location
  countStatement
  let texts ← Word.arguments (it.expand fuel) branch.conditions
  let call : ActiveCall := ⟨name, .control, texts, location⟩
  inFrame (.ofCall call false) do
    Evaluation.notify it.observe (.handler call)
    Evaluation.modify fun c => c.withScopes (·.modifyParent fun f => { f with openChain := mark })
    if chosen then it.runNode fuel (.statement branch.body) else pure ()
  pure texts

/-- What a block or a script of these statements does once it is entered. -/
def Interpreter.runAll (it : Interpreter σ) (fuel : Nat) (statements : List (Statement Token)) :
    Evaluation σ Unit :=
  sequence (fun statement => it.runNode fuel (.statement statement)) statements

/-- An `if`, any number of `elif` behind it, and perhaps an `else` at the end. -/
structure Choice where
  first : Branch
  others : List Branch
  last : Option Branch

namespace Choice

/-- The branches behind the first, under their names. -/
def further (others : List Branch) (last : Option Branch) : List (String × Branch) :=
  others.map ("elif", ·) ++ (last.map ("else", ·)).toList

/-- The branches under their names. -/
def branches (choice : Choice) : List (String × Branch) :=
  ("if", choice.first) :: further choice.others choice.last

end Choice

/-- The statements that branches are. -/
def statementsOf (branches : List (String × Branch)) : List (Statement Token) :=
  branches.map fun entry => entry.2.statement entry.1

/-- The chain of the frame is open for the next statement, or it is closed. -/
def Frame.Awaits (f : Frame) (isOpen : Bool) : Prop :=
  f.openChain = if isOpen then some f.statements else none

/-- A chain that was open for the next statement is open for it once it is counted. -/
lemma Frame.Awaits.chainOpen {f counted : Frame} {isOpen : Bool} (h : f.Awaits isOpen)
    (mark : counted.mark = f.countStatement.mark) : counted.chainOpen = isOpen := by
  obtain ⟨statements, openChain⟩ := Prod.mk.inj mark
  have awaited : counted.openChain = if isOpen then some f.statements else none := openChain.trans h
  rw [Frame.chainOpen, awaited, statements]
  cases isOpen with
  | false => rfl
  | true => exact beq_self_eq_true _

/-- The state in which the chain of the frame around the call has this mark. -/
def State.marked (s : State σ) (mark : Option Nat) : State σ :=
  withScopes (·.modifyParent fun f => { f with openChain := mark }) s

/-- To leave the mark as it is changes nothing. -/
lemma State.marked_same (s : State σ) : s.marked s.context.scopes.parent.openChain = s := by
  obtain ⟨⟨⟨top, _ | ⟨p, rest⟩⟩, definitions, flow, steps⟩, host⟩ := s <;> rfl

/-- A handler opens and closes the else-chain by the mark of the frame around it. -/
lemma State.update_setChain (s : State σ) (isOpen : Bool) :
    { s with context := s.context.update (.setChain isOpen) } =
      s.marked (if isOpen then some s.context.scopes.parent.statements else none) := by
  obtain ⟨⟨⟨top, _ | ⟨p, rest⟩⟩, definitions, flow, steps⟩, host⟩ := s <;> rfl

namespace Library

variable {body : Evaluation σ Unit} {arguments : Evaluation σ (List String)} {rounds : Nat}

/-- An action that goes on with an answer that may be a fault ends well only without one. -/
lemma ofExcept_ok {result : Except Fault α} {next : α → Action σ β} {s s' : State σ} {answer : β}
    (h : ofAction body arguments rounds (.ofExcept result >>= next) s = some (.ok answer, s')) :
    ∃ value, result = .ok value ∧ ofAction body arguments rounds (next value) s =
      some (.ok answer, s') := by
  cases result with
  | ok value => exact ⟨value, rfl, h⟩
  | error fault => cases h

/-- Behind the check of their number, there are so many arguments. -/
lemma requireArgs_ok {call : Call} {count : Nat} (h : call.requireArgs count = .ok ()) :
    call.args.length = count := by
  rw [Call.requireArgs] at h
  split at h
  · assumption
  · cases h

/-- What a branch does once it knows its condition: the mark that it leaves, and its body. -/
lemma choose_ok {text : String} {s s' : State σ} {answer : Option String}
    (h : ofAction body arguments rounds (choose text >>= fun _ => pure none) s =
      some (.ok answer, s')) :
    (if Reading.isTrue text then body else pure ())
      (s.marked (if Reading.isTrue text then none else some s.context.scopes.parent.statements)) =
        some (.ok (), s') := by
  rw [ofAction_bind] at h
  obtain ⟨_, s₁, chosen, ended⟩ := bind_ok h
  cases ended
  change ofAction body arguments rounds (if Reading.isTrue text then .body else pure ())
    { s with context := s.context.update (.setChain !Reading.isTrue text) } = _ at chosen
  rw [s.update_setChain] at chosen
  cases e : Reading.isTrue text with
  | true =>
    rw [e, if_pos rfl, ofAction_body] at chosen
    exact chosen
  | false =>
    rw [e] at chosen
    exact chosen

/-- Whether a call of this name finds the chain open, or need not. -/
def finds (name : String) (f : Frame) : Bool :=
  name = "if" || f.chainOpen

/-- The mark that a call of this name with these texts leaves on the frame around it. -/
def markOf (name : String) (texts : List String) (f : Frame) : Option Nat :=
  if finds name f then if texts.all Reading.isTrue then none else some f.statements
  else f.openChain

/-- The chain stays open if it was found open and the condition is not true. -/
lemma awaits_markOf {name : String} {texts : List String} {f marked : Frame} {isOpen : Bool}
    (mark : marked.mark = (f.statements, markOf name texts f))
    (found : finds name f = isOpen) (closed : isOpen = false → f.openChain = none) :
    marked.Awaits (isOpen && !texts.all Reading.isTrue) := by
  obtain ⟨statements, openChain⟩ := Prod.mk.inj mark
  rw [Frame.Awaits, statements, openChain, markOf, found]
  cases isOpen with
  | true => cases texts.all Reading.isTrue <;> rfl
  | false => exact closed rfl

/-- The number of the texts that a branch takes as its condition. -/
def arity (name : String) : Nat :=
  if name = "else" then 0 else 1

/-- What a branch that ends well has done. -/
def Decides (body : Evaluation σ Unit) (name : String) (texts : List String) (s s' : State σ) :
    Prop :=
  let around := s.context.scopes.parent
  texts.length = arity name ∧
    (if finds name around && texts.all Reading.isTrue then body else pure ())
      (s.marked (markOf name texts around)) = some (.ok (), s')

/-- Behind a branch, the frame around it has the mark that it left, which its body does not touch. -/
lemma Decides.mark {name : String} {texts : List String} {s s' : State σ} {around : ScopeStack}
    {frame : Frame} (h : Decides body name texts s s') (leaves : Leaves 1 body)
    (entered : s.context.scopes = around.push frame) :
    s'.context.scopes.pop.top.mark = (around.top.statements, markOf name texts around.top) := by
  obtain ⟨-, ran⟩ := h
  have parent : s.context.scopes.parent = around.top := by rw [entered]; rfl
  rw [parent] at ran
  have kept : Leaves 1 (if finds name around.top && texts.all Reading.isTrue then body
      else pure ()) := by
    split
    · exact leaves
    · exact (Leaving.monadic 1).pure ()
  have agree := kept _ _ _ ran
  rw [State.marked, withScopes, Context.withScopes, entered] at agree
  let marked := around.modifyTop fun f => { f with openChain := markOf name texts around.top }
  have left : ScopeStack.Agree 0 s'.context.scopes.pop marked := ScopeStack.Agree.pop agree
  exact left.top

variable {call : Call} {s s' : State σ} {answer : Option String}

/-- An `if` that goes through has decided about its body. -/
lemma ifTrue_ok
    (h : ofAction body arguments rounds (ifTrue call) s = some (.ok answer, s')) :
    Decides body "if" call.args s s' := by
  obtain ⟨_, one, h⟩ := ofExcept_ok h
  obtain ⟨text, args⟩ := List.length_eq_one_iff.1 (requireArgs_ok one)
  obtain ⟨_, first, h⟩ := ofExcept_ok h
  rw [Call.arg, args] at first
  cases first
  refine ⟨requireArgs_ok one, ?_⟩
  have chosen := choose_ok h
  simpa [args, finds, markOf] using chosen

/-- An `elif` that goes through has decided about its body. -/
lemma elseIf_ok
    (h : ofAction body arguments rounds (elseIf call) s = some (.ok answer, s')) :
    Decides body "elif" call.args s s' := by
  obtain ⟨_, one, h⟩ := ofExcept_ok h
  obtain ⟨text, args⟩ := List.length_eq_one_iff.1 (requireArgs_ok one)
  refine ⟨requireArgs_ok one, ?_⟩
  change ofAction body arguments rounds
    (if s.context.scopes.parent.chainOpen then _ else _) s = _ at h
  cases e : s.context.scopes.parent.chainOpen with
  | true =>
    rw [e, if_pos rfl] at h
    obtain ⟨_, first, h⟩ := ofExcept_ok h
    rw [Call.arg, args] at first
    cases first
    have chosen := choose_ok h
    simpa [args, finds, markOf, e] using chosen
  | false =>
    rw [e] at h
    cases h
    simp only [finds, markOf, e]
    exact congrArg (fun t => some (Except.ok (), t)) s.marked_same

/-- An `else` that goes through has decided about its body. -/
lemma otherwise_ok
    (h : ofAction body arguments rounds (otherwise call) s = some (.ok answer, s')) :
    Decides body "else" call.args s s' := by
  obtain ⟨_, none_given, h⟩ := ofExcept_ok h
  have args := List.length_eq_zero_iff.1 (requireArgs_ok none_given)
  refine ⟨requireArgs_ok none_given, ?_⟩
  change ofAction body arguments rounds
    (if s.context.scopes.parent.chainOpen then _ else _) s = _ at h
  cases e : s.context.scopes.parent.chainOpen with
  | true =>
    rw [e, if_pos rfl] at h
    change ofAction body arguments rounds (.body >>= fun _ => pure none)
      { s with context := s.context.update (.setChain false) } = _ at h
    rw [s.update_setChain, ofAction_bind, ofAction_body] at h
    obtain ⟨_, s₁, ran, ended⟩ := bind_ok h
    cases ended
    simpa [args, finds, markOf, e] using ran
  | false =>
    rw [e] at h
    cases h
    simp only [finds, markOf, e]
    exact congrArg (fun t => some (Except.ok (), t)) s.marked_same

/-- The names of the calls that make a choice. -/
def branchNames : List String :=
  ["if", "elif", "else"]

/-- Every branch that goes through has decided about its body. -/
lemma controls_ok (call : Call) (name : call.name ∈ branchNames)
    (h : ofAction body arguments rounds (controls.toHandler.invoke call) s =
      some (.ok answer, s')) : Decides body call.name call.args s s' := by
  obtain ⟨⟨name, kind, args, location⟩, node, decided⟩ := call
  simp only [branchNames, List.mem_cons, List.not_mem_nil, or_false] at name
  rcases name with rfl | rfl | rfl
  · exact ifTrue_ok h
  · exact elseIf_ok h
  · exact otherwise_ok h

end Library

open Library

section

variable {it : Interpreter σ} {random : Slot σ γ} {streams : Slot σ Streams} {fuel : Nat}

/-- The only handler of control calls is that of the base library. -/
lemma Interpreter.Uses.controls (uses : it.Uses (Standard random streams)) {name : String}
    {handler : Handler σ}
    (found : Chain.handlerFor? (it.registry.chain .control) name = some handler) :
    handler = Library.controls.toHandler := by
  obtain ⟨entry, mem, rfl⟩ := Chain.exists_of_firstFor found
  have standard := uses .control entry mem
  revert standard
  generalize entry.2 = handler
  intro standard
  cases standard
  rfl

/-- The handler of a control call that ends well is that of the base library. -/
lemma dispatch_control_ok (uses : it.Uses (Standard random streams)) {site : CallSite}
    {call : ActiveCall} (control : call.kind = .control) {s s' : State σ} {answer : Option String}
    (served : it.dispatch (it.runNode fuel) (it.expand fuel) fuel site none call s =
      some (.ok answer, s')) :
    it.handle (it.runNode fuel) (it.expand fuel) fuel site call controls.toHandler s =
      some (.ok answer, s') := by
  rcases dispatch_cases served with ⟨_, failed, -⟩ | ⟨handler, found, handled⟩
  · cases failed
  · rw [control] at found
    exact uses.controls found ▸ handled

/-- How a control call with a literal name ends well: its conditions are evaluated, and unless that
stopped the run, the base library serves it in a frame of its own. -/
lemma runNode_control_ok (uses : it.Uses (Standard random streams)) {branch : Branch} {name : String}
    {s s' : State σ}
    (ran : it.runNode (fuel + 1) (.statement (branch.statement name)) s = some (.ok (), s')) :
    let statement := branch.statement name
    let location := (Node.statement statement).start
    ∃ stepped texts evaluated, it.step location s = some (.ok (), stepped) ∧
      Word.arguments (it.expand fuel) branch.conditions
        (withScopes (·.modifyTop Frame.countStatement) stepped) = some (.ok texts, evaluated) ∧
      (evaluated.context.flow = .stopped ∧ s' = evaluated ∨
        let call : ActiveCall := ⟨name, .control, texts, location⟩
        let site : CallSite := ⟨.control, .literal branch.label name, branch.conditions,
          some branch.body, .statement statement, location⟩
        ∃ answer, inFrame (.ofCall call false)
          (it.handle (it.runNode fuel) (it.expand fuel) fuel site call controls.toHandler)
            evaluated = some (.ok answer, s')) := by
  rw [runNode] at ran
  obtain ⟨_, stepped, step, ran⟩ := bind_ok ran
  change (it.call _ _ _ _ >>= fun _ => pure ()) (withScopes (·.modifyTop Frame.countStatement) stepped)
    = _ at ran
  obtain ⟨value, _, called, ended⟩ := bind_ok ran
  cases ended
  rw [call, Word.slots_literal] at called
  change (Word.arguments (it.expand fuel) branch.conditions >>= fun texts => _) _ = _ at called
  obtain ⟨texts, evaluated, conditions, served⟩ := bind_ok called
  refine ⟨stepped, texts, evaluated, step, conditions, ?_⟩
  rcases serve_ok served with ⟨stopped, -, same⟩ | ⟨-, answer, -, entered⟩
  · exact .inl ⟨stopped, same⟩
  · obtain ⟨left, dispatched, rfl⟩ := inFrame_ok entered
    exact .inr ⟨answer, inFrame_of_ok (dispatch_control_ok uses rfl dispatched)⟩

/-- A branch that is run is gone through. It is chosen if it finds the chain open, which an `if`
need not, and its condition is true; and it leaves the chain open for the next statement if it found
it open and is not chosen. -/
lemma Branch.pass_of_ran (uses : it.Uses (Standard random streams)) {branch : Branch} (name : String)
    (mem : name ∈ branchNames) {s s' : State σ}
    (ran : it.runNode (fuel + 1) (.statement (branch.statement name)) s = some (.ok (), s'))
    (goes_on : s'.context.flow ≠ .stopped) {isOpen : Bool}
    (start : name = "if" ∧ isOpen = true ∨ name ≠ "if" ∧ s.context.scopes.top.Awaits isOpen) :
    ∃ texts mark, texts.length = arity name ∧
      branch.pass it fuel name mark (isOpen && texts.all Reading.isTrue) s = some (.ok texts, s') ∧
      s'.context.scopes.top.Awaits (isOpen && !texts.all Reading.isTrue) := by
  obtain ⟨stepped, texts, evaluated, step, conditions, stopped | ⟨answer, served⟩⟩ :=
    runNode_control_ok uses ran
  · exact absurd (stopped.2 ▸ stopped.1) goes_on
  let location := (Node.statement (branch.statement name)).start
  let call : ActiveCall := ⟨name, .control, texts, location⟩
  let pushed := withScopes (·.push (.ofCall call false)) evaluated
  let entered : State σ := ⟨pushed.context, it.observe (.handler call) pushed.context pushed.host⟩
  obtain ⟨left, decided, rfl⟩ := inFrame_ok served
  -- neither the step nor the conditions touch the mark of the frame
  have counted : evaluated.context.scopes.top.mark = s.context.scopes.top.countStatement.mark := by
    have kept := (arguments_leave uses fuel branch.conditions _ _ _ conditions).top
    have same := (step_leaves (n := 0) location _ _ _ step).top
    obtain ⟨statements, openChain⟩ := Prod.mk.inj same
    rw [kept]
    exact Prod.ext (congrArg (· + 1) statements) openChain
  have found : finds name evaluated.context.scopes.top = isOpen := by
    rcases start with ⟨rfl, rfl⟩ | ⟨other, awaits⟩
    · rfl
    · simp [finds, other, awaits.chainOpen counted]
  have decides : Decides (it.runNode fuel (.statement branch.body)) name texts entered left :=
    controls_ok ⟨call, _, _⟩ mem decided
  have ⟨given, body⟩ := decides
  change (if finds name evaluated.context.scopes.top && _ then _ else _ : Evaluation σ Unit)
    (entered.marked (markOf name texts evaluated.context.scopes.top)) = _ at body
  rw [found] at body
  refine ⟨texts, markOf name texts evaluated.context.scopes.top, given, ?_, ?_⟩
  · have count : countStatement stepped =
        some (.ok (), withScopes (·.modifyTop Frame.countStatement) stepped) := rfl
    rw [Branch.pass, bind_of_ok step, bind_of_ok count, bind_of_ok conditions]
    exact bind_of_ok (inFrame_of_ok body) _
  · -- nor does the body touch the mark that the branch leaves
    have marked := decides.mark ((run_leaves uses fuel).1 _) rfl
    refine awaits_markOf marked found fun closed => ?_
    rcases start with ⟨-, rfl⟩ | ⟨-, awaits⟩
    · cases closed
    · rw [closed] at awaits
      exact (congrArg Prod.snd counted).trans awaits

/-- The values with one more in front. -/
def prepend (first : α) (rest : Nat → α) : Nat → α
  | 0 => first
  | i + 1 => rest i

/-- The branches are gone through in order, and of their bodies one is run at most: if the chain is
open, that of the first branch whose value is true; a branch without a value has no condition. -/
def GoneThrough (it : Interpreter σ) (fuel : Nat) (isOpen : Bool) (branches : List (String × Branch))
    (values : List String) (s s' : State σ) : Prop :=
  ∃ (marks : Nat → Option Nat) (reached : Nat → State σ),
    reached 0 = s ∧ reached branches.length = s' ∧
    ∀ i (h : i < branches.length),
      branches[i].2.pass it fuel branches[i].1 (marks i)
        (isOpen && i == values.findIdx Reading.isTrue) (reached i) =
          some (.ok values[i]?.toList, reached (i + 1))

namespace GoneThrough

/-- Without branches nothing is gone through. -/
lemma nil (isOpen : Bool) (s : State σ) : GoneThrough it fuel isOpen [] [] s s :=
  ⟨fun _ => none, fun _ => s, rfl, rfl, fun _ h => nomatch h⟩

/-- A branch without a condition comes last. -/
lemma single {isOpen : Bool} {name : String} {branch : Branch} {mark : Option Nat} {s s' : State σ}
    (passed : branch.pass it fuel name mark isOpen s = some (.ok [], s')) :
    GoneThrough it fuel isOpen [(name, branch)] [] s s' := by
  refine ⟨fun _ => mark, prepend s fun _ => s', rfl, rfl, fun i h => ?_⟩
  obtain rfl : i = 0 := Nat.lt_one_iff.1 h
  simpa [prepend] using passed

/-- A branch closes the chain for those behind it if its value is true. -/
lemma cons {isOpen : Bool} {name : String} {branch : Branch} {mark : Option Nat} {value : String}
    {branches : List (String × Branch)} {values : List String} {s s₁ s' : State σ}
    (passed : branch.pass it fuel name mark (isOpen && Reading.isTrue value) s =
      some (.ok [value], s₁))
    (rest : GoneThrough it fuel (isOpen && !Reading.isTrue value) branches values s₁ s') :
    GoneThrough it fuel isOpen ((name, branch) :: branches) (value :: values) s s' := by
  obtain ⟨marks, reached, rfl, rfl, each⟩ := rest
  refine ⟨prepend mark marks, prepend s reached, rfl, rfl, ?_⟩
  intro i h
  cases i with
  | zero =>
    rw [List.findIdx_cons]
    cases e : Reading.isTrue value <;> simpa [e, prepend] using passed
  | succ i =>
    have passed := each i (Nat.lt_of_succ_lt_succ h)
    rw [List.findIdx_cons]
    cases e : Reading.isTrue value <;> simpa [e, prepend] using passed

end GoneThrough

/-- Behind a branch that left the chain open or closed it, the others go on with that. -/
lemma goneThrough_further (uses : it.Uses (Standard random streams)) (last : Option Branch)
    {s' : State σ} (goes_on : s'.context.flow = .next) (others : List Branch) {s : State σ}
    {isOpen : Bool} (awaits : s.context.scopes.top.Awaits isOpen)
    (ran : it.runAll (fuel + 1) (statementsOf (Choice.further others last)) s = some (.ok (), s')) :
    ∃ values, values.length = others.length ∧
      GoneThrough it fuel isOpen (Choice.further others last) values s s' := by
  induction others generalizing s isOpen with
  | nil =>
    cases last with
    | none =>
      cases ran
      exact ⟨[], rfl, .nil isOpen _⟩
    | some branch =>
      obtain ⟨_, first, next, rest⟩ := sequence_cons_ok ran goes_on
      cases rest
      obtain ⟨texts, mark, none_given, passed, -⟩ := Branch.pass_of_ran uses "else" (by decide) first
        (by rw [next]; exact nofun) (.inr ⟨by decide, awaits⟩)
      obtain rfl := List.length_eq_zero_iff.1 none_given
      rw [List.all_nil, Bool.and_true] at passed
      exact ⟨[], rfl, .single passed⟩
  | cons branch others ih =>
    obtain ⟨_, first, next, rest⟩ := sequence_cons_ok ran goes_on
    obtain ⟨texts, mark, one_given, passed, open_next⟩ := Branch.pass_of_ran uses "elif"
      (by decide) first (by rw [next]; exact nofun) (.inr ⟨by decide, awaits⟩)
    obtain ⟨value, rfl⟩ := List.length_eq_one_iff.1 one_given
    simp only [List.all_cons, List.all_nil, Bool.and_true] at passed open_next
    obtain ⟨values, length, through⟩ := ih open_next rest
    exact ⟨value :: values, congrArg (· + 1) length, .cons passed through⟩

/-- If the branches of a choice, in whatever statements they stand, are gone through to their end,
their conditions are evaluated in order, each to one value, and of their bodies exactly one is run,
once: that of the first branch whose value is true or, if there is none, that of the `else`. The
statements behind the choice go on from there. -/
theorem one_branch_runs (uses : it.Uses (Standard random streams)) (choice : Choice)
    (before : List (Statement Token)) {s s' : State σ}
    (ran : it.runAll (fuel + 1) (before ++ statementsOf choice.branches) s = some (.ok (), s'))
    (goes_on : s'.context.flow = .next) :
    ∃ (values : List String) (marks : Nat → Option Nat) (reached : Nat → State σ),
      values.length = choice.others.length + 1 ∧
      it.runAll (fuel + 1) before s = some (.ok (), reached 0) ∧
      reached choice.branches.length = s' ∧
      (∀ i (h : i < choice.branches.length),
        choice.branches[i].2.pass it fuel choice.branches[i].1 (marks i)
          (i == values.findIdx Reading.isTrue) (reached i) =
            some (.ok values[i]?.toList, reached (i + 1))) ∧
      ∀ behind, it.runAll (fuel + 1) (before ++ statementsOf choice.branches ++ behind) s =
        it.runAll (fuel + 1) behind s' := by
  have all := ran
  rw [runAll, sequence_append] at ran
  obtain ⟨_, s₁, earlier, ran⟩ := bind_ok ran
  obtain ⟨_, first, next, rest⟩ := sequence_cons_ok ran goes_on
  obtain ⟨texts, mark, one_given, passed, open_next⟩ := Branch.pass_of_ran uses "if"
    (by decide) first (by rw [next]; exact nofun) (.inl ⟨rfl, rfl⟩)
  obtain ⟨value, rfl⟩ := List.length_eq_one_iff.1 one_given
  simp only [List.all_cons, List.all_nil, Bool.and_true] at passed open_next
  obtain ⟨values, length, through⟩ := goneThrough_further uses _ goes_on _ open_next rest
  obtain ⟨marks, reached, rfl, ended, each⟩ := GoneThrough.cons passed through
  refine ⟨value :: values, marks, reached, congrArg (· + 1) length, earlier, ended, ?_, ?_⟩
  · intro i h
    have passed := each i h
    rw [Bool.true_and] at passed
    exact passed
  · intro behind
    rw [runAll, sequence_append]
    exact bind_of_ok all _

end

/-- A choice whose second condition is true. -/
def threeWays : Choice :=
  let branch conditions value : Branch := ⟨default, default, conditions,
    .command (.literal default "set") [.literal default "x", .literal default value]⟩
  ⟨branch [.literal default "0"] "a", [branch [.literal default "1"] "b"], some (branch [] "c")⟩

/-- The choice is gone through, and the second body is the one that is run. -/
theorem threeWays_second :
    ∃ s', Console.interpreter.runAll 2 (statementsOf threeWays.branches)
        ⟨.initial, Console.start [] 0⟩ = some (.ok (), s') ∧
      s'.context.get? "x" = some "b" ∧
      ∃ (values : List String) (marks : Nat → Option Nat) (reached : Nat → State Console.Host),
        values.length = threeWays.others.length + 1 ∧
        reached threeWays.branches.length = s' ∧
        ∀ i (h : i < threeWays.branches.length),
          threeWays.branches[i].2.pass Console.interpreter 1 threeWays.branches[i].1 (marks i)
            (i == values.findIdx Reading.isTrue) (reached i) =
              some (.ok values[i]?.toList, reached (i + 1)) := by
  have outcome : (Console.interpreter.runAll 2 (statementsOf threeWays.branches)
      ⟨.initial, Console.start [] 0⟩).map (fun ended =>
        (ended.1.toBool, ended.2.context.get? "x", ended.2.context.flow)) =
      some (true, some "b", .next) := by
    decide +kernel
  obtain ⟨⟨_ | _, s'⟩, ran, same⟩ := Option.map_eq_some_iff.1 outcome
  · cases same
  · obtain ⟨-, same⟩ := Prod.mk.inj same
    obtain ⟨value, next⟩ := Prod.mk.inj same
    obtain ⟨values, marks, reached, length, -, ended, each, -⟩ :=
      one_branch_runs Console.interpreter_uses threeWays [] ran next
    exact ⟨s', ran, value, values, marks, reached, length, ended, each⟩

end Scriptlet
