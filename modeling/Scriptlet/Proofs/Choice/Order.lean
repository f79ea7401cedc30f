import Scriptlet.Proofs.Choice.Branches
import Scriptlet.Proofs.Flow.Return

/-!
# Which statement comes before which

A block has no frame of its own, and a loop runs its body in one frame again and again. So the
statement that was started last in the frame when another one starts is the last one in what stands
in front of it, or it is the same statement in the round before (`Before`). This is what an `elif` or
an `else` can continue (`Between`).
-/

namespace Scriptlet

variable {σ α : Type}

namespace Statement

mutual

/-- The statement that is started last when the statement is run to its end. -/
def last : Statement α → Statement α
  | block origin body => lastOf (.block origin body) body
  | command name args => .command name args
  | control origin name args body => .control origin name args body

/-- The statement that is started last when the statements are run to their end, behind another. -/
def lastOf (earlier : Statement α) : List (Statement α) → Statement α
  | [] => earlier
  | statement :: rest => lastOf statement.last rest

end

/-- The statement before the end of a body is the last one in it. -/
lemma lastOf_concat (earlier : Statement α) (body : List (Statement α)) (statement : Statement α) :
    lastOf earlier (body ++ [statement]) = statement.last := by
  induction body generalizing earlier with
  | nil => rw [List.nil_append, lastOf, lastOf]
  | cons first rest ih => rw [List.cons_append, lastOf, ih]

end Statement

/-- The statement stands somewhere in a script with this body. -/
inductive Within (body : List (Statement Token)) : Statement Token → Prop
  | listed {statement : Statement Token} : statement ∈ body → Within body statement
  | inBlock {origin : Token} {inner : List (Statement Token)} {statement : Statement Token} :
    Within body (.block origin inner) → statement ∈ inner → Within body statement
  | asBody {origin : Token} {name : Word Token} {args : List (Word Token)}
    {statement : Statement Token} :
    Within body (.control origin name args statement) → Within body statement

/-- The statements are those of the script or of a block in it. -/
inductive Listed (body : List (Statement Token)) : List (Statement Token) → Prop
  | script : Listed body body
  | block {origin : Token} {inner : List (Statement Token)} :
    Within body (.block origin inner) → Listed body inner

/-- The statements of a list in the body are in it. -/
lemma Listed.within {body statements : List (Statement Token)} (h : Listed body statements)
    {statement : Statement Token} (mem : statement ∈ statements) : Within body statement := by
  cases h with
  | script => exact .listed mem
  | block within => exact .inBlock within mem

/-- The first statement is the last to be started in the frame before the second one. -/
inductive Before (body : List (Statement Token)) : Statement Token → Statement Token → Prop
  /-- The first is the last one in the statement in front of the second. -/
  | sibling {front behind : List (Statement Token)} {statement next : Statement Token} :
    Listed body (front ++ statement :: next :: behind) → Before body statement.last next
  /-- The statement is a control call that is itself the body of one, without a name of its own that
  is the same in every round. -/
  | round {origin inner : Token} {name other : Word Token} {args others : List (Word Token)}
    {statement : Statement Token} :
    Within body (.control origin name args (.control inner other others statement)) →
    other.content? = none →
    Before body (.control inner other others statement) (.control inner other others statement)

/-- The statement is a control call that may be one of `elif` or `else`. -/
def Statement.MayContinue : Statement Token → Prop
  | .control _ name _ _ => ∀ text, name.content? = some text → text = "elif" ∨ text = "else"
  | _ => False

/-- The call is one that opens a chain. -/
def ActiveCall.Opens (call : ActiveCall) : Prop :=
  call.kind = .control ∧ (call.name = "if" ∨ call.name = "elif")

/-- The call is one that continues a chain. -/
def ActiveCall.Continues (call : ActiveCall) : Prop :=
  call.kind = .control ∧ (call.name = "elif" ∨ call.name = "else")

/-- The control call is made where the statement says so. -/
def Statement.Makes (statement : Statement Token) (call : ActiveCall) : Prop :=
  ∃ origin name args body, statement = .control origin name args body ∧ call.kind = .control ∧
    call.location = statement.start ∧ ∀ text, name.content? = some text → call.name = text

/-- A statement that makes a call that continues a chain may continue one. -/
lemma Statement.Makes.mayContinue {statement : Statement Token} {call : ActiveCall}
    (makes : statement.Makes call) (continues : call.Continues) : statement.MayContinue := by
  obtain ⟨_, name, _, _, rfl, -, -, literal⟩ := makes
  intro text content
  rw [← literal text content]
  exact continues.2

/-- At this moment the call that the statement makes is served within these calls. -/
structure Moment.Serves (moment : Moment) (calls : List ActiveCall) (statement : Statement Token)
    (call : ActiveCall) : Prop where
  event : moment.event = .handler call
  makes : statement.Makes call
  backtrace : moment.context.scopes.backtrace = calls ++ [call]

/-- A call that opens a chain was served as the statement with this number of the frame within these
calls, and the frame has not been left since. -/
def Opened (origin : Statement Token → Prop) (calls : List ActiveCall) (number : Nat)
    (moments : List Moment) : Prop :=
  ∃ earlier opened later opener statement, moments = earlier ++ opened :: later ∧
    opened.Serves calls statement opener ∧ opener.Opens ∧ origin statement ∧
    opened.context.scopes.parent.statements = number ∧
    ∀ moment ∈ later, calls <+: moment.context.scopes.backtrace

namespace Opened

variable {origin origin' : Statement Token → Prop} {calls : List ActiveCall} {number : Nat}
  {moments news : List Moment}

/-- Whatever the chain came from counts as what it is. -/
lemma imp (h : Opened origin calls number moments)
    (imp : ∀ statement, origin statement → origin' statement) :
    Opened origin' calls number moments := by
  obtain ⟨earlier, opened, later, opener, statement, split, serves, opens, known, rest⟩ := h
  exact ⟨earlier, opened, later, opener, statement, split, serves, opens, imp _ known, rest⟩

/-- What happens in the frame does not leave it. -/
lemma append (h : Opened origin calls number moments)
    (within : ∀ moment ∈ news, calls <+: moment.context.scopes.backtrace) :
    Opened origin calls number (moments ++ news) := by
  obtain ⟨earlier, opened, later, opener, statement, rfl, serves, opens, known, number_eq, stays⟩ := h
  refine ⟨earlier, opened, later ++ news, opener, statement, ?_, serves, opens, known, number_eq,
    fun moment mem => ?_⟩
  · rw [List.append_assoc, List.cons_append]
  · exact (List.mem_append.1 mem).elim (stays moment) (within moment)

end Opened

/-- The innermost call was served by a handler that found its chain open. -/
def Licensed (scopes : ScopeStack) (moments : List Moment) : Prop :=
  scopes.top.call.Continues → ∃ served ∈ moments, served.event = .handler scopes.top.call ∧
    served.context.scopes.backtrace = scopes.backtrace ∧
    served.context.scopes.parent.chainOpen = true

/-- Behind what happened earlier, no body of an `elif` or `else` is run without an open chain, and no
chain is found open but one that was opened by what comes before in the script. -/
structure Licit (body : List (Statement Token)) (earlier : List Moment) (moment : Moment) : Prop where
  step : ∀ location, moment.event = .step location → Licensed moment.context.scopes earlier
  handler : ∀ call, moment.event = .handler call → call.Continues →
    moment.context.scopes.parent.chainOpen = true →
    ∃ calls statement number, moment.Serves calls statement call ∧
      moment.context.scopes.parent.openChain = some number ∧
      Opened (Before body · statement) calls number earlier

/-- Everything that happened is licit. -/
def Lawful (body : List (Statement Token)) (moments : List Moment) : Prop :=
  ∀ earlier moment later, moments = earlier ++ moment :: later → Licit body earlier moment

/-- As long as nothing has happened, everything is in order. -/
lemma lawful_nil (body : List (Statement Token)) : Lawful body [] := by
  intro earlier moment later split
  cases earlier <;> cases split

/-- A moment that may follow keeps all in order. -/
lemma Lawful.concat {body : List (Statement Token)} {moments : List Moment} {moment : Moment}
    (h : Lawful body moments) (licit : Licit body moments moment) :
    Lawful body (moments ++ [moment]) := by
  intro earlier other later split
  rcases List.eq_nil_or_concat later with rfl | ⟨rest, final, rfl⟩
  · obtain ⟨rfl, same⟩ := List.append_inj' split rfl
    cases same
    exact licit
  · rw [List.concat_eq_append, ← List.cons_append, ← List.append_assoc] at split
    obtain ⟨rfl, -⟩ := List.append_inj' split rfl
    exact h earlier other rest rfl

/-- The bodies of all definitions stand in the script, and everything that happened is licit. -/
structure Sound (body : List (Statement Token)) (s : State (Recorded σ)) : Prop where
  known : ∀ key definition, s.context.definitions.get? key = some definition →
    Within body definition.body
  lawful : Lawful body s.host.moments

/-- Between two statements of a frame, of which `statements` are counted, the chain is not open, or
it was opened by the one with this number, which is one of those in question. -/
structure Between (body : List (Statement Token)) (origin : Statement Token → Prop)
    (number statements : Nat) (s : State (Recorded σ)) : Prop extends Sound body s where
  licensed : Licensed s.context.scopes s.host.moments
  flow : s.context.flow ≠ .leaving
  counted : s.context.scopes.top.statements = statements
  marked : ∀ k, s.context.scopes.top.openChain = some k → k ≤ number
  opened : s.context.scopes.top.openChain = some number →
    Opened origin s.context.scopes.backtrace number s.host.moments

open Evaluation

namespace Between

variable {body : List (Statement Token)} {origin origin' : Statement Token → Prop}
  {number statements ceiling : Nat} {s s' : State (Recorded σ)}

/-- Where the frame stands may be said with less. -/
lemma imp (h : Between body origin number statements s)
    (imp : ∀ statement, origin statement → origin' statement) :
    Between body origin' number statements s where
  toSound := h.toSound
  licensed := h.licensed
  flow := h.flow
  counted := h.counted
  marked := h.marked
  opened isOpen := (h.opened isOpen).imp imp

/-- The statement that comes next, once it is counted, did not open the chain. -/
lemma next (h : Between body origin number (number + 1) s) :
    Between body origin' (number + 1) (number + 1) s where
  toSound := h.toSound
  licensed := h.licensed
  flow := h.flow
  counted := h.counted
  marked k isOpen := Nat.le_succ_of_le (h.marked k isOpen)
  opened isOpen := absurd (h.marked _ isOpen) (Nat.not_succ_le_self number)

/-- At the start of a frame no chain is open. -/
lemma enter (sound : Sound body s) (licensed : Licensed s.context.scopes s.host.moments)
    (flow : s.context.flow ≠ .leaving) (mark : s.context.scopes.top.mark = (0, none)) :
    Between body origin 0 0 s where
  toSound := sound
  licensed := licensed
  flow := flow
  counted := congrArg Prod.fst mark
  marked _ isOpen := nomatch isOpen.symm.trans (congrArg Prod.snd mark)
  opened isOpen := nomatch isOpen.symm.trans (congrArg Prod.snd mark)

end Between

/-- All that a trail tells of happened in the calls around it. -/
lemma Trail.within {calls : List ActiveCall} {current : Nat} {first last : Mode}
    {news : List Moment} (h : Trail calls current first news last) :
    ∀ moment ∈ news, calls <+: moment.context.scopes.backtrace := by
  induction h with
  | nil => exact fun _ mem => nomatch mem
  | cons within _ _ ih => exact List.forall_mem_cons.2 ⟨within, ih⟩

/-- A license is one for all stacks with the same calls. -/
lemma Licensed.of_shape {scopes scopes' : ScopeStack} {moments : List Moment}
    (h : Licensed scopes moments) (shape : scopes'.shape = scopes.shape) :
    Licensed scopes' moments := by
  intro continues
  rw [ScopeStack.call_top_eq_of_shape shape] at continues ⊢
  rw [ScopeStack.backtrace_eq_of_shape shape]
  exact h continues

/-- What happens later takes no license away. -/
lemma Licensed.append {scopes : ScopeStack} {moments : List Moment} (h : Licensed scopes moments)
    (news : List Moment) : Licensed scopes (moments ++ news) := by
  intro continues
  obtain ⟨served, mem, rest⟩ := h continues
  exact ⟨served, List.mem_append_left _ mem, rest⟩

/-- A statement that is counted is in the same frame. -/
lemma Between.countStatement {body : List (Statement Token)} {origin : Statement Token → Prop}
    {number statements : Nat} {s : State (Recorded σ)}
    (h : Between body origin number statements s) :
    Between body origin number (statements + 1)
      (withScopes (·.modifyTop Frame.countStatement) s) := by
  have shape : (s.context.scopes.modifyTop Frame.countStatement).shape = s.context.scopes.shape := rfl
  refine ⟨⟨h.known, h.lawful⟩, h.licensed.of_shape shape, h.flow, congrArg (· + 1) h.counted,
    h.marked, ?_⟩
  intro isOpen
  have calls := ScopeStack.backtrace_eq_of_shape shape
  show Opened origin (s.context.scopes.modifyTop Frame.countStatement).backtrace number _
  rw [calls]
  exact h.opened isOpen

/-- A step may follow where it is licensed. -/
lemma Licensed.licit {body : List (Statement Token)} {c : Context} {moments : List Moment}
    (h : Licensed c.scopes moments) (location : Location) :
    Licit body moments ⟨.step location, c⟩ where
  step _ _ := h
  handler _ event := nomatch event

/-- A call of a definition may always follow. -/
lemma licit_definition (body : List (Statement Token)) (moments : List Moment) (call : ActiveCall)
    (c : Context) : Licit body moments ⟨.definition call, c⟩ where
  step _ event := nomatch event
  handler _ event := nomatch event

/-- A call that continues no chain may always follow. -/
lemma licit_handler (body : List (Statement Token)) (moments : List Moment) {call : ActiveCall}
    (other : ¬ call.Continues) (c : Context) : Licit body moments ⟨.handler call, c⟩ where
  step _ event := nomatch event
  handler _ event continues := by
    cases event
    exact absurd continues other

/-- A moment that may follow keeps all in order. -/
lemma Sound.note {it : Interpreter σ} {body : List (Statement Token)} {s : State (Recorded σ)}
    {event : Event} (h : Sound body s) (licit : Licit body s.host.moments ⟨event, s.context⟩) :
    Sound body (it.note event s) where
  known := h.known
  lawful := h.lawful.concat licit

/-- Steps are licit in a frame in which statements are run. -/
lemma Between.takeStep {it : Interpreter σ} {body : List (Statement Token)}
    {origin : Statement Token → Prop} {number statements : Nat} {s : State (Recorded σ)}
    (h : Between body origin number statements s) (location : Location) :
    Between body origin number statements (it.takeStep location s) where
  known := h.known
  lawful := h.lawful.concat (Licensed.licit (c := { s.context with steps := s.context.steps + 1 })
    h.licensed location)
  licensed := h.licensed.append _
  flow := h.flow
  counted := h.counted
  marked := h.marked
  opened isOpen := (h.opened isOpen).append (List.forall_mem_singleton.2 (List.prefix_refl _))

/-- After a course of an evaluation it is known what can have opened the chain if it is for the marks
that the frame has then. -/
lemma Between.of_goes {body : List (Statement Token)} {origin origin' : Statement Token → Prop}
    {number number' statements statements' ceiling : Nat} {s s' : State (Recorded σ)}
    {first last : Mode} {result : Except RuntimeError α}
    (h : Between body origin number statements s) (sound : Sound body s')
    (goes : Goes ceiling s first result s' last) (flow : s'.context.flow ≠ .leaving)
    (counted : s'.context.scopes.top.statements = statements')
    (marked : ∀ k, s'.context.scopes.top.openChain = some k → k ≤ number')
    (opened : s'.context.scopes.top.openChain = some number' →
      Opened origin' s.context.scopes.backtrace number' s'.host.moments) :
    Between body origin' number' statements' s' where
  toSound := sound
  licensed := by
    obtain ⟨news, moments, -⟩ := goes.happened
    rw [moments]
    exact (h.licensed.of_shape goes.shape).append news
  flow := flow
  counted := counted
  marked := marked
  opened isOpen := by
    rw [ScopeStack.backtrace_eq_of_shape goes.shape]
    exact opened isOpen

/-- What touches no mark leaves the chain as it is. -/
lemma Between.of_agree {body : List (Statement Token)} {origin : Statement Token → Prop}
    {number statements ceiling : Nat} {s s' : State (Recorded σ)}
    {first last : Mode} {result : Except RuntimeError α}
    (h : Between body origin number statements s) (sound : Sound body s')
    (goes : Goes ceiling s first result s' last) (flow : s'.context.flow ≠ .leaving)
    (agree : ScopeStack.Agree 0 s'.context.scopes s.context.scopes) :
    Between body origin number statements s' := by
  obtain ⟨statements_eq, openChain_eq⟩ := Prod.mk.inj agree.top
  refine h.of_goes sound goes flow (statements_eq.trans h.counted) ?_ ?_
  · rw [openChain_eq]
    exact h.marked
  · rw [openChain_eq]
    obtain ⟨news, moments, trail⟩ := goes.happened
    rw [moments]
    exact fun isOpen => (h.opened isOpen).append trail.within

end Scriptlet
