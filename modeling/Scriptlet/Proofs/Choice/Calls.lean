import Scriptlet.Proofs.Choice.Controls

/-!
# Calls and the order of statements

A call that is no control call leaves the chain of the frame around it as it is (`call_between`), and
behind a control call it is known which statement can have opened it (`serve_control`), provided that
what the calls run is in order (`Interpreter.Ordered`).
-/

namespace Scriptlet

open Evaluation Interpreter

variable {σ α β γ : Type} [RandomSource γ] {random : Slot σ γ} {streams : Slot σ Streams}

namespace Library

/-- A call leaves the chain as it found it, or opens it for the next statement. -/
lemma markOf_eq_some {name : String} {texts : List String} {f : Frame} {number : Nat}
    (given : texts.length = arity name) (mark : markOf name texts f = some number) :
    f.openChain = some number ∨
      number = f.statements ∧ name ≠ "else" ∧ (name = "if" ∨ f.chainOpen = true) := by
  rw [markOf] at mark
  split at mark
  · rename_i found
    split at mark
    · cases mark
    · rename_i false_text
      refine .inr ⟨(Option.some.inj mark).symm, ?_, by simpa [finds] using found⟩
      rintro rfl
      -- an `else` has no condition that could be false
      exact false_text (by rw [List.length_eq_zero_iff.1 given]; rfl)
  · exact .inl mark

end Library

namespace Interpreter

variable {it : Interpreter σ} {fuel : Nat} {site : CallSite}

/-- Behind a control call that ended well the chain of the frame around it is as it was, or the call
opened it: an `if`, or an `elif` that found it open. -/
lemma chain_of_control (uses : it.Uses (Standard random streams)) {call : ActiveCall}
    (control : call.kind = .control) {decided : Statement Token} (bodied : site.body = some decided)
    {s s' : State σ} {answer : Option String}
    (served : inFrame (.ofCall call false)
      (it.dispatch (it.runNode fuel) (it.expand fuel) fuel site none call) s =
        some (.ok answer, s')) :
    s'.context.scopes.top.statements = s.context.scopes.top.statements ∧
      ∀ number, s'.context.scopes.top.openChain = some number →
        s.context.scopes.top.openChain = some number ∨
          number = s.context.scopes.top.statements ∧ call.Opens ∧
            (call.name = "if" ∨ s.context.scopes.top.chainOpen = true) := by
  by_cases branch : call.name ∈ Library.branchNames
  · obtain ⟨left, dispatched, rfl⟩ := inFrame_ok served
    have handled := dispatch_control_ok uses control dispatched
    let pushed := withScopes (·.push (.ofCall call false)) s
    let entered : State σ := ⟨pushed.context, it.observe (.handler call) pushed.context pushed.host⟩
    have decides : Library.Decides (runBody (it.runNode fuel) site call.name) call.name call.args
        entered left := Library.controls_ok ⟨call, site.node, site.body⟩ branch handled
    -- the body runs in a frame further inside, so it touches no mark of the frame around the call
    have leaves : Leaves 1 (runBody (it.runNode fuel) site call.name) := by
      rw [runBody, bodied]
      exact (run_leaves uses fuel).1 _
    obtain ⟨statements, openChain⟩ := Prod.mk.inj (decides.mark leaves rfl)
    refine ⟨statements, fun number isOpen => ?_⟩
    rcases Library.markOf_eq_some decides.1 (openChain.symm.trans isOpen) with
      before | ⟨now, other, found⟩
    · exact .inl before
    · refine .inr ⟨now, ⟨control, ?_⟩, found⟩
      simp only [Library.branchNames, List.mem_cons, List.not_mem_nil, or_false] at branch
      rcases branch with name | name | name
      · exact .inl name
      · exact .inr name
      · exact absurd name other
  · -- no other control call touches the mark
    have changes : ∀ change, MadeBy call.kind call.name change →
        ∀ c : Context, ScopeStack.Agree 1 (c.update change).scopes c.scopes := by
      intro change made c
      refine ScopeStack.Agree.mono (Nat.zero_le 1) (c.agree_update fun isOpen same => branch ?_)
      subst same
      rw [control] at made
      simpa [MadeBy, Update.makers, Library.branchNames] using made
    obtain ⟨runs, expands⟩ := run_leaves uses fuel
    have leaves : Leaves 1 (it.dispatch (it.runNode fuel) (it.expand fuel) fuel site none call) :=
      dispatch_leaves runs expands uses changes none
    obtain ⟨statements, openChain⟩ := Prod.mk.inj (leaves.inFrame _ _ _ _ served).top
    exact ⟨statements, fun number isOpen => .inl (openChain ▸ isOpen)⟩

end Interpreter

namespace Evaluation

/-- However the evaluation ends, what holds before it holds afterwards. -/
def Maintains (invariant : State σ → Prop) : Relation σ σ := fun _ x _ =>
  ∀ s result s', x s = some (result, s') → invariant s → invariant s'

/-- What each part of an evaluation maintains, the evaluation does. -/
lemma Maintains.monadic (invariant : State σ → Prop) : Relation.Monadic (Maintains invariant) where
  pure _ _ _ _ e h := by
    cases e
    exact h
  raise _ _ _ _ e h := by
    cases e
    exact h
  bind hx hf s result s' e h := by
    rcases bind_cases e with ⟨value, s₁, first, rest⟩ | ⟨error, failed, -⟩
    · exact hf value _ _ _ rest (hx _ _ _ first h)
    · exact hx _ _ _ failed h
  context hf s := hf s.context s

end Evaluation

/-- A word with a content stands for that content alone. -/
lemma Word.slots_of_content {expand : Expand σ} {word : Word Token} {content : String}
    (literal : word.content? = some content) {s s' : State σ} {slots : List String}
    (h : word.slots expand s = some (.ok slots, s')) : slots = [content] := by
  cases word with
  | literal origin text =>
    cases literal
    rw [slots_literal] at h
    cases h
    rfl
  | _ => cases literal

namespace Statement

/-- The statement is a control call that says of itself that it continues a chain. -/
def Continues : Statement Token → Prop
  | .control _ name _ _ => name.content? = some "elif" ∨ name.content? = some "else"
  | _ => False

/-- What can have opened the chain when the statement has been run to its end: the last statement in
it, unless that needs an open chain itself and there was nothing to open it. -/
def After (origin : Statement Token → Prop) (statement last : Statement Token) : Prop :=
  last = statement.last ∧ (statement.Continues → ∃ earlier, origin earlier)

end Statement

namespace Interpreter

/-- With this fuel, a statement that is run where it may be keeps everything sound, and what comes
next may be run behind it. -/
def Ordered (it : Interpreter σ) (body : List (Statement Token)) (fuel : Nat) : Prop :=
  ∀ (statement : Statement Token) (origin : Statement Token → Prop) (number : Nat)
    (s : State (Recorded σ)) result s', Within body statement →
    (∀ earlier, origin earlier → statement.MayContinue → Before body earlier statement) →
    Between body origin number number s →
    it.recorded.runNode fuel (.statement statement) s = some (result, s') →
    Sound body s' ∧ (result = .ok () → s'.context.flow = .next →
      ∃ number', Between body (statement.After origin) number' number' s')

section

variable {it : Interpreter σ} {body : List (Statement Token)} {fuel : Nat} {site : CallSite}
  {origin : Statement Token → Prop} {number statements : Nat} {s s' : State (Recorded σ)}

/-- A call of a definition keeps everything sound if its body stands in the script. -/
lemma definition_sound (runs : it.Ordered body fuel) {call : ActiveCall}
    (other : call.kind ≠ .control) {definition : Definition} (within : Within body definition.body)
    {result : Except RuntimeError (Option String)} (sound : Sound body s)
    (flow : s.context.flow ≠ .leaving)
    (ran : it.recorded.dispatch (it.recorded.runNode fuel) (it.recorded.expand fuel) fuel site
      (some definition) call (withScopes (·.push (.ofCall call true)) s) = some (result, s')) :
    Sound body s' := by
  let noted := it.note (.definition call) (withScopes (·.push (.ofCall call true)) s)
  have noted_sound : Sound body noted := Sound.note (sound.congr rfl rfl) (licit_definition _ _ _ _)
  rcases runDefinition_cases ran with ⟨_, -, rfl⟩ | ⟨ended, s₁, body_ran, outcome⟩
  · exact noted_sound
  · have start : Between body (fun _ => False) 0 0
        (withScopes (bindParams definition call.args) noted) := by
      have marks := map_bindParams Frame.mark_mapScope definition call.args noted.context.scopes
      refine .enter (noted_sound.congr rfl rfl) ?_ flow (List.cons.inj marks).1
      refine Licensed.of_shape (fun continues => ?_) (shape_bindParams definition call.args _)
      exact absurd continues.1 other
    obtain ⟨ended, -⟩ := runs _ _ _ _ _ _ within nofun start body_ran
    rcases outcome with ⟨_, -, -, rfl⟩ | ⟨-, -, rfl⟩
    · exact ended
    · refine ended.congr ?_ rfl
      show (arrive s₁.context).definitions = _
      rw [arrive]
      split <;> rfl

/-- A handler that serves no control call runs nothing and defines nothing. -/
lemma handler_sound (uses : it.Uses (Standard random streams)) {call : ActiveCall}
    (other : call.kind ≠ .control) {result : Except RuntimeError (Option String)}
    (sound : Sound body s)
    (ran : it.recorded.dispatch (it.recorded.runNode fuel) (it.recorded.expand fuel) fuel site none
      call (withScopes (·.push (.ofCall call false)) s) = some (result, s')) : Sound body s' := by
  rcases dispatch_recorded_cases ran with ⟨_, -, rfl⟩ | ⟨handler, found, handled⟩
  · exact sound.congr rfl rfl
  · obtain ⟨entry, mem, rfl⟩ := Chain.exists_of_firstFor found
    have confined := (uses call.kind entry mem).confined ⟨call, site.node, site.body⟩
    rw [Action.ConfinedAs, eq_false other] at confined
    let parts : Parts σ := ⟨runBody (it.recorded.runNode fuel) site call.name,
      Word.arguments (it.recorded.expand fuel) site.args, fuel⟩
    have upholds : parts.Upholds body (fun _ => True) (fun _ => True)
        (entry.2.invoke ⟨call, site.node, site.body⟩) := by
      refine .of_confined (fun definition made => other ?_) confined
      -- only `def` defines anything
      exact (Prod.mk.inj (List.mem_singleton.1 made)).1
    let entered := withScopes (·.push (.ofCall call false)) s
    have noted_sound : Sound body (it.note (.handler call) entered) :=
      Sound.note (sound.congr rfl rfl)
        (licit_handler _ _ (fun continues => other continues.1) _)
    exact (upholds _ noted_sound trivial _ _ handled).1

/-- What a call that is no control call runs is the bodies of definitions. -/
lemma serve_sound (uses : it.Uses (Standard random streams)) (runs : it.Ordered body fuel)
    (other : site.kind ≠ .control) {name : String} {args : List String}
    {result : Except RuntimeError String} (sound : Sound body s) (flow : s.context.flow ≠ .leaving)
    (served : it.recorded.serve (it.recorded.runNode fuel) (it.recorded.expand fuel) fuel site name
      args s = some (result, s')) : Sound body s' := by
  rcases serve_cases served with ⟨rfl, -⟩ | ⟨-, inner, called, -⟩
  · exact sound
  obtain ⟨inner, s₁, dispatched, rfl, -⟩ := inFrame_cases called
  suffices left : Sound body s₁ from left.congr rfl rfl
  cases defined : s.context.definition? site.kind name with
  | some definition =>
    rw [defined] at dispatched
    refine definition_sound runs ?_ ?_ sound flow dispatched
    · exact other
    · cases kind : site.kind with
      | control => exact absurd kind other
      | command => exact sound.known _ _ (kind ▸ defined)
      | expansion => exact sound.known _ _ (kind ▸ defined)
  | none =>
    rw [defined] at dispatched
    refine handler_sound uses ?_ sound dispatched
    exact other

variable (expands : ∀ token name args origin number statements,
  Maintains (Between body origin number statements) (it.recorded.expand fuel token name args)
    (it.recorded.expand fuel token name args))
include expands

/-- The arguments of a word are evaluated between the same branches. -/
lemma slots_maintain (word : Word Token) :
    Maintains (Between body origin number statements) (word.slots (it.recorded.expand fuel))
      (word.slots (it.recorded.expand fuel)) :=
  Word.slots_lockstep (Maintains.monadic _).toSequential.placing.toLockstep
    (fun token name args => expands token name args _ _ _) word

/-- Arguments are evaluated between the same branches. -/
lemma arguments_maintain (words : List (Word Token)) :
    Maintains (Between body origin number statements)
      (Word.arguments (it.recorded.expand fuel) words)
      (Word.arguments (it.recorded.expand fuel) words) :=
  Word.arguments_rel (Maintains.monadic _).toSequential
    (fun token name args => expands token name args _ _ _) words

/-- What a call evaluates before it is served is evaluated between the statements of the frame. -/
lemma call_cases {result : Except RuntimeError String}
    (h : Between body origin number statements s)
    (called : it.recorded.call (it.recorded.runNode fuel) (it.recorded.expand fuel) fuel site s =
      some (result, s')) :
    (∃ error, result = .error error ∧ Between body origin number statements s') ∨
      ∃ name args s₁, Between body origin number statements s₁ ∧
        (∀ content, site.name.content? = some content → name = content) ∧
        it.recorded.serve (it.recorded.runNode fuel) (it.recorded.expand fuel) fuel site name args
          s₁ = some (result, s') := by
  have slots : Maintains (Between body origin number statements) _ _ :=
    slots_maintain expands site.name
  have arguments : Maintains (Between body origin number statements) _ _ :=
    arguments_maintain expands site.args
  rcases bind_cases called with ⟨named, s₁, name, rest⟩ | ⟨error, failed, rfl⟩
  · have between := slots _ _ _ name h
    rcases bind_cases rest with ⟨given, s₂, args, served⟩ | ⟨error, failed, rfl⟩
    · refine .inr ⟨_, _, s₂, arguments _ _ _ args between, fun content literal => ?_, served⟩
      rw [Word.slots_of_content literal name]
      rfl
    · exact .inl ⟨error, rfl, arguments _ _ _ failed between⟩
  · exact .inl ⟨error, rfl, slots _ _ _ failed h⟩

/-- Around a call that is no control call the chain stays as it is. -/
lemma call_between (uses : it.Uses (Standard random streams)) (runs : it.Ordered body fuel)
    {result : Except RuntimeError String} (h : Between body origin number statements s)
    (called : it.recorded.call (it.recorded.runNode fuel) (it.recorded.expand fuel) fuel site s =
      some (result, s')) (other : site.kind ≠ .control) :
    Sound body s' ∧
      (s'.context.flow ≠ .leaving → Between body origin number statements s') := by
  have sound : Sound body s' := by
    rcases call_cases expands h called with ⟨_, -, after⟩ | ⟨name, args, s₁, between, -, served⟩
    · exact after.toSound
    · exact serve_sound uses runs other between.toSound between.flow served
  refine ⟨sound, fun flow => ?_⟩
  have carried := run_carries uses fuel
  have carries : ∀ statement (mode : Mode), mode.Reading → Carries it.limits.maxSteps mode
      (fun _ => True) (it.recorded.runNode fuel (.statement statement)) :=
    fun statement mode reading => carried.1 _ mode reading fun _ => ⟨statement, rfl⟩
  obtain ⟨mode, reading, start⟩ := Flow.exists_reading h.flow
  obtain ⟨last, -, goes⟩ := call_carries carries carried.2 uses (fun control => absurd control other)
    reading s (.of_reading reading start) _ _ called
  have forgets := it.call_forgets (it.run_forgets fuel).1 (it.run_forgets fuel).2 site s
  rw [called] at forgets
  obtain ⟨runs, expands⟩ := run_leaves uses fuel
  refine h.of_agree sound goes flow (call_leaves runs expands uses ?_ _ _ _ forgets.symm)
  intro name change made c
  exact (agree_of_madeBy other made c).mono (Nat.zero_le 1)

end

end Interpreter

/-- A variable that is set touches no chain. -/
lemma Between.set {body : List (Statement Token)} {origin : Statement Token → Prop}
    {number statements : Nat} {s : State (Recorded σ)}
    (h : Between body origin number statements s) (name value : String) :
    Between body origin number statements
      { s with context := s.context.update (.set name value) } := by
  have shape := s.context.shape_update (.set name value)
  obtain ⟨counted, openChain⟩ := Prod.mk.inj (s.context.agree_set name value).top
  refine ⟨h.toSound.update nofun, h.licensed.of_shape shape, h.flow, counted.trans h.counted, ?_, ?_⟩
  · rw [openChain]
    exact h.marked
  · rw [openChain, ScopeStack.backtrace_eq_of_shape shape]
    exact h.opened

/-- The chain that is open once a statement is counted is that of the statement before it. -/
lemma Between.openChain {body : List (Statement Token)} {origin : Statement Token → Prop}
    {number : Nat} {s : State (Recorded σ)} (h : Between body origin number (number + 1) s)
    (chain : s.context.scopes.top.chainOpen = true) :
    s.context.scopes.top.openChain = some number := by
  rw [Frame.chainOpen, h.counted] at chain
  split at chain
  · rename_i marked
    rw [marked, Nat.succ.inj (of_decide_eq_true chain)]
  · cases chain

/-- A statement that continues a chain finds it open only if what stands before it opened it. -/
lemma Between.licit_handler {body : List (Statement Token)} {origin : Statement Token → Prop}
    {number : Nat} {s : State (Recorded σ)} {statement : Statement Token} {call : ActiveCall}
    (h : Between body origin number (number + 1) s) (makes : statement.Makes call)
    (before : ∀ earlier, origin earlier → statement.MayContinue → Before body earlier statement) :
    Licit body s.host.moments
      ⟨.handler call, s.context.withScopes (·.push (.ofCall call false))⟩ where
  step _ event := nomatch event
  handler _ event continues chain := by
    cases event
    change s.context.scopes.top.chainOpen = true at chain
    have isOpen := h.openChain chain
    refine ⟨s.context.scopes.backtrace, statement, number, ?_, isOpen, ?_⟩
    · exact ⟨rfl, makes, ScopeStack.backtrace_push _ _⟩
    · refine (h.opened isOpen).imp fun earlier known => ?_
      exact before earlier known (makes.mayContinue continues)

namespace Interpreter

section

variable {it : Interpreter σ} {body : List (Statement Token)} {fuel : Nat}
  {origin : Statement Token → Prop} {number : Nat} {s s' : State (Recorded σ)}

/-- The frame of a control call is entered with what is known of the chain around it. -/
lemma enters_note {call : ActiveCall} (flow : s.context.flow ≠ .leaving) :
    Enters call (it.note (.handler call) (withScopes (·.push (.ofCall call false)) s)) where
  entered := ⟨s.context.scopes, rfl⟩
  flow := flow
  licensed may continues := by
    rcases may with other | isOpen
    · exact absurd continues other
    · exact ⟨_, List.mem_concat_self, rfl, rfl, isOpen⟩

/-- The body of a call is run again behind itself. -/
def InRounds (body : List (Statement Token)) (decided : Statement Token) (s : State (Recorded σ)) :
    Prop :=
  ∃ number, Between body (fun last => last = decided.last ∧ ¬ decided.Continues) number number s

variable {site : CallSite} {token : Token} {name : Word Token} {args : List (Word Token)}
  {decided : Statement Token}

/-- What a control call evaluates keeps things sound, round after round. -/
lemma parts_sound (runs : it.Ordered body fuel)
    (expands : ∀ token name args origin number statements,
      Maintains (Between body origin number statements) (it.recorded.expand fuel token name args)
        (it.recorded.expand fuel token name args))
    (within : Within body (.control token name args decided)) (bodied : site.body = some decided)
    (called : String) :
    Parts.Sound (σ := σ) body
      ⟨runBody (it.recorded.runNode fuel) site called,
        Word.arguments (it.recorded.expand fuel) site.args, fuel⟩
      (InRounds body decided) where
  runs s ready result s' ran := by
    obtain ⟨number, between⟩ := ready
    change runBody _ site called s = _ at ran
    rw [runBody, bodied] at ran
    have before : ∀ last, last = decided.last ∧ ¬ decided.Continues → decided.MayContinue →
        Before body last decided := by
      rintro _ ⟨rfl, other⟩ may
      cases decided with
      | control inner word words statement =>
        refine .round within ?_
        -- a name of its own would be one that continues a chain
        cases content : word.content? with
        | none => rfl
        | some text =>
          rcases may text content with rfl | rfl
          · exact absurd (.inl content) other
          · exact absurd (.inr content) other
      | _ => exact may.elim
    obtain ⟨sound, again⟩ := runs decided _ number s result s' (.asBody within) before between ran
    refine ⟨sound, fun ok next => ?_⟩
    obtain ⟨number', between⟩ := again ok next
    refine ⟨number', between.imp fun last after => ⟨after.1, fun names => ?_⟩⟩
    obtain ⟨_, -, other⟩ := after.2 names
    exact other names
  arguments s ready result s' reread := by
    obtain ⟨number, between⟩ := ready
    exact ⟨number, arguments_maintain expands site.args _ _ _ reread between⟩
  sound s ready := by
    obtain ⟨number, between⟩ := ready
    exact between.toSound
  set s key value ready := by
    obtain ⟨number, between⟩ := ready
    exact ⟨number, between.set key value⟩
  enter call s ready sound := ⟨0, ready.between sound⟩

/-- In the frame of a control call everything stays sound, and nothing leaves the frame around it. -/
lemma handle_control (uses : it.Uses (Standard random streams)) (runs : it.Ordered body fuel)
    (expands : ∀ token name args origin number statements,
      Maintains (Between body origin number statements) (it.recorded.expand fuel token name args)
        (it.recorded.expand fuel token name args))
    (within : Within body (.control token name args decided)) (bodied : site.body = some decided)
    {call : ActiveCall} (sound : Sound body s) (flow : s.context.flow = .next)
    (licit : Licit body s.host.moments
      ⟨.handler call, s.context.withScopes (·.push (.ofCall call false))⟩)
    {result : Except RuntimeError (Option String)}
    (handled : it.recorded.handle (it.recorded.runNode fuel) (it.recorded.expand fuel) fuel site call
      (Library.controls.toHandler : Handler σ).recorded
      (withScopes (·.push (.ofCall call false)) s) = some (result, s')) :
    Sound body s' ∧ ∃ later,
      s'.host.moments = s.host.moments ++
        ⟨.handler call, s.context.withScopes (·.push (.ofCall call false))⟩ :: later ∧
      ∀ moment ∈ later, s.context.scopes.backtrace <+: moment.context.scopes.backtrace := by
  let noted := it.note (.handler call) (withScopes (·.push (.ofCall call false)) s)
  let parts : Parts σ := ⟨runBody (it.recorded.runNode fuel) site call.name,
    Word.arguments (it.recorded.expand fuel) site.args, fuel⟩
  have carried := run_carries uses fuel
  have orderly : parts.Orderly it.limits.maxSteps := by
    refine ⟨fun mode reading => ?_, fun mode => arguments_carries carried.2 site.args⟩
    show Carries _ _ _ (runBody (it.recorded.runNode fuel) site call.name)
    rw [runBody, bodied]
    exact carried.1 _ mode reading fun _ => ⟨decided, rfl⟩
  have heeds : parts.Heeds it.limits.maxSteps .running (fun _ => True)
      (Library.controls.toHandler.invoke ⟨call, site.node, site.body⟩) :=
    Library.controls_heed orderly _
  have upholds : parts.Upholds body (Enters call) (fun _ => True)
      (Library.controls.toHandler.invoke ⟨call, site.node, site.body⟩) := by
    have sound : parts.Sound body (InRounds body decided) :=
      parts_sound runs expands within bodied call.name
    refine Library.controls_uphold ⟨call, site.node, site.body⟩ sound fun statement same => ?_
    cases bodied.symm.trans same
    exact .asBody within
  -- that the call keeps everything sound and that it goes on as calls do are said of the same end
  have noted_sound : Sound body noted := Sound.note (sound.congr rfl rfl) licit
  obtain ⟨ended, -⟩ := upholds noted noted_sound
    (enters_note (by rw [flow]; decide)) _ _ handled
  obtain ⟨last, -, goes⟩ := heeds noted (.running flow) _ _ handled
  obtain ⟨later, moments, trail⟩ := goes.happened
  refine ⟨ended, later, ?_, fun moment mem => ?_⟩
  · rw [moments]
    exact (List.append_assoc _ _ _)
  · have inside := trail.within moment mem
    change (s.context.scopes.push (.ofCall call false)).backtrace <+: _ at inside
    rw [ScopeStack.backtrace_push] at inside
    exact (List.prefix_append _ _).trans inside

/-- Behind a control call the chain is closed, or it was opened by that call or in its place. -/
lemma serve_control (uses : it.Uses (Standard random streams)) (runs : it.Ordered body fuel)
    (expands : ∀ token name args origin number statements,
      Maintains (Between body origin number statements) (it.recorded.expand fuel token name args)
        (it.recorded.expand fuel token name args)) {statement : Statement Token}
    (is_control : statement = .control token name args decided) (within : Within body statement)
    (before : ∀ earlier, origin earlier → statement.MayContinue → Before body earlier statement)
    (site_eq : site = ⟨.control, name, args, some decided, .statement statement, statement.start⟩)
    {called : String} {given : List String}
    (literal : ∀ content, name.content? = some content → called = content)
    (h : Between body origin number (number + 1) s) {result : Except RuntimeError String}
    (served : it.recorded.serve (it.recorded.runNode fuel) (it.recorded.expand fuel) fuel site called
      given s = some (result, s')) :
    Sound body s' ∧ ∀ value, result = .ok value → s'.context.flow ≠ .leaving →
      Between body (statement.After origin) (number + 1) (number + 1) s' := by
  subst is_control site_eq
  rcases serve_cases served with ⟨rfl, -⟩ | ⟨goes_on, inner, entered, answers⟩
  · exact ⟨h.toSound, fun _ _ _ => h.next⟩
  have next : s.context.flow = .next := by
    cases flow : s.context.flow with
    | next => rfl
    | leaving => exact absurd flow h.flow
    | stopped => exact absurd flow goes_on
  have makes : (Statement.control token name args decided).Makes
      ⟨called, .control, given, (Statement.control token name args decided).start⟩ :=
    ⟨token, name, args, decided, rfl, rfl, rfl, literal⟩
  obtain ⟨inner, s₁, dispatched, rfl, outcome⟩ := inFrame_cases entered
  rcases dispatch_recorded_cases dispatched with ⟨_, rfl, rfl⟩ | ⟨handler, found, handled⟩
  · refine ⟨h.toSound.congr rfl rfl, fun value ok _ => ?_⟩
    obtain ⟨_, rfl, -⟩ := answers value ok
    rcases outcome with ⟨_, failed, -⟩ | ⟨_, -, failed⟩ <;> cases failed
  obtain rfl := uses.controls found
  obtain ⟨sound, later, moments, stays⟩ :=
    handle_control uses runs expands within rfl h.toSound next (h.licit_handler makes before) handled
  refine ⟨sound.congr rfl rfl, fun value ok flow => ?_⟩
  subst ok
  have carried := run_carries uses fuel
  obtain ⟨last, -, goes⟩ := serve_carries
    (fun statement mode reading => carried.1 _ mode reading fun _ => ⟨statement, rfl⟩) carried.2 uses
    (fun _ => rfl) called given (.inl rfl) s (.running next) _ _ served
  -- what became of the chain is read off the call as it goes without a record
  have forgets := it.serve_forgets (it.run_forgets fuel).1 (it.run_forgets fuel).2
    ⟨.control, name, args, some decided, .statement (.control token name args decided),
      (Statement.control token name args decided).start⟩ called given s
  rw [served] at forgets
  rcases serve_ok forgets.symm with ⟨stopped, -⟩ | ⟨-, answer, -, forgotten⟩
  · exact absurd stopped goes_on
  obtain ⟨counted, marked⟩ := chain_of_control uses rfl rfl forgotten
  refine h.of_goes (sound.congr rfl rfl) goes flow (counted.trans h.counted) ?_ ?_
  · intro k isOpen
    rcases marked k isOpen with old | ⟨rfl, -⟩
    · exact Nat.le_succ_of_le (h.marked k old)
    · exact Nat.le_of_eq h.counted
  · intro isOpen
    -- a chain that was open before would carry the mark of an earlier statement
    rcases marked _ isOpen with old | ⟨-, opens, found⟩
    · exact absurd (h.marked _ old) (Nat.not_succ_le_self number)
    refine ⟨s.host.moments, _, later, _, _, moments, ⟨rfl, makes, ScopeStack.backtrace_push _ _⟩,
      opens, ⟨rfl, fun continues => ?_⟩, h.counted, stays⟩
    rcases found with first | chain
    · rcases continues with content | content
      · exact absurd ((literal _ content).symm.trans first) (by decide)
      · exact absurd ((literal _ content).symm.trans first) (by decide)
    · obtain ⟨-, -, -, -, earlier, -, -, -, known, -⟩ := h.opened (h.openChain chain)
      exact ⟨earlier, known⟩

end

end Interpreter

end Scriptlet
