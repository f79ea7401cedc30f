import Scriptlet.Proofs.Library.Standard
import Scriptlet.Proofs.Limits.Enough

/-!
# The rounds of a loop

A `while` whose condition has been read as true runs its body and reads the condition again
(`Round`); it ends when that is false, when the body has left or failed, and when the condition cannot
be read (`LoopEnds`). What a reading gives is put together with spaces before it is looked at, so the
number of its arguments does not matter here. With enough fuel the loop does this and nothing else
(`loops_eq_some`).
-/

namespace Scriptlet

open Evaluation

variable {σ : Type}

/-- A text is true unless it is zero. -/
lemma Reading.isTrue_iff {text : String} : Reading.isTrue text = true ↔ text ≠ "0" := by
  simp [Reading.isTrue]

namespace Interpreter

/-- What so many rounds of a `while` do with so much fuel, once the condition has been read. -/
def rounds (it : Interpreter σ) (condition : List (Word Token)) (body : Statement Token)
    (fuel many : Nat) (text : String) : Evaluation (Recorded σ) Unit :=
  ofAction (it.recorded.runNode fuel (.statement body))
    (Word.arguments (it.recorded.expand fuel) condition) fuel
    (Library.whileRounds many text : Action σ Unit).recorded

/-- What the rounds of a `while` do with enough fuel, once the condition has been read. -/
noncomputable def loops (it : Interpreter σ) (condition : List (Word Token)) (body : Statement Token)
    (text : String) : Evaluation (Recorded σ) Unit :=
  enough fun fuel => it.rounds condition body fuel fuel text

variable {it : Interpreter σ} {condition : List (Word Token)} {body : Statement Token}

/-- A loop whose condition is false does nothing. -/
lemma rounds_of_false (fuel many : Nat) {text : String} (false : Reading.isTrue text = false) :
    it.rounds condition body fuel many text = pure () := by
  have ends : (Library.whileRounds many text : Action σ Unit) = pure () := by
    cases many <;> rw [Library.whileRounds, false] <;> rfl
  rw [rounds, ends]
  rfl

/-- A round runs the body and reads the condition again, and the others follow. -/
lemma rounds_of_true (fuel many : Nat) {text : String} (true : Reading.isTrue text = true) :
    it.rounds condition body fuel (many + 1) text =
      it.recorded.runNode fuel (.statement body) >>= fun _ => context >>= fun c =>
        if c.isInterrupted then pure ()
        else Word.arguments (it.recorded.expand fuel) condition >>= fun args =>
          it.rounds condition body fuel many (Text.unwords args) := by
  rw [rounds, Library.whileRounds, if_pos true, Action.recorded_bind, ofAction_bind,
    Action.recorded_body, ofAction_body]
  refine congrArg (_ >>= ·) (funext fun _ => ?_)
  rw [Action.recorded_bind, ofAction_bind]
  funext s
  show ofAction _ _ _ (Action.recorded (if s.context.isInterrupted then _ else _)) s =
    (if s.context.isInterrupted then _ else _ : Evaluation (Recorded σ) Unit) s
  split
  · rfl
  · rw [Action.recorded_bind, ofAction_bind, Action.recorded_arguments, ofAction_arguments]
    rfl

/-- A loop whose condition is true needs a round. -/
lemma rounds_zero (fuel : Nat) {text : String} (true : Reading.isTrue text = true) :
    it.rounds condition body fuel 0 text = exhausted := by
  rw [rounds, Library.whileRounds, if_pos true]
  rfl

/-- The condition was read as true, the body goes through, and the condition is read again. -/
structure Round (it : Interpreter σ) (condition : List (Word Token)) (body : Statement Token)
    (before after : List String × State (Recorded σ)) : Prop where
  holds : Text.unwords before.1 ≠ "0"
  again : ∃ s, it.runs (.statement body) before.2 = some (.ok (), s) ∧
    s.context.isInterrupted = false ∧ it.reads condition s = some (.ok after.1, after.2)

/-- How a loop ends whose condition was read. -/
inductive LoopEnds (it : Interpreter σ) (condition : List (Word Token)) (body : Statement Token) :
    List String × State (Recorded σ) → Except RuntimeError Unit × State (Recorded σ) → Prop
  | false {args s} :
    Text.unwords args = "0" →
    LoopEnds it condition body (args, s) (.ok (), s)
  | failed {args s s' error} :
    Text.unwords args ≠ "0" →
    it.runs (.statement body) s = some (.error error, s') →
    LoopEnds it condition body (args, s) (.error error, s')
  | left {args s s'} :
    Text.unwords args ≠ "0" →
    it.runs (.statement body) s = some (.ok (), s') →
    s'.context.isInterrupted = true →
    LoopEnds it condition body (args, s) (.ok (), s')
  | unread {args s s₁ s' error} :
    Text.unwords args ≠ "0" →
    it.runs (.statement body) s = some (.ok (), s₁) →
    s₁.context.isInterrupted = Bool.false →
    it.reads condition s₁ = some (.error error, s') →
    LoopEnds it condition body (args, s) (.error error, s')
  | round {reading reading' ended} :
    it.Round condition body reading reading' →
    LoopEnds it condition body reading' ended →
    LoopEnds it condition body reading ended

section

variable (uses : it.Uses fun _ handler => handler.Orderly)
include uses

/-- More rounds and more fuel change no end of a loop. -/
lemma rounds_refines {fuel fuel' many many' : Nat} (le : fuel ≤ fuel') (more : many ≤ many')
    (text : String) :
    Refines (it.rounds condition body fuel many text) (it.rounds condition body fuel' many' text) := by
  have shorter : Action.CutShort (fun _ => False) many (Library.whileRounds many text : Action σ Unit)
      (Library.whileRounds many' text) := (Library.whileRounds_plain more text).cutShort
  exact ofAction_rel_of_cutShort (Refines.acting _) ((growing_runNode uses _).of_le le)
    ((growing_arguments uses _).of_le le) le shorter

/-- With more fuel, and as many more rounds, a loop does what it did with less. -/
lemma growing_rounds (text : String) :
    Growing fun fuel => it.rounds condition body fuel fuel text :=
  fun _ _ => rounds_refines uses (Nat.le_add_left _ _) (Nat.le_add_left _ _) text

/-- With enough fuel, a loop whose condition is true runs the body and reads the condition again, and
goes on with what that gives. -/
lemma loops_of_true {text : String} (true : Reading.isTrue text = true) :
    it.loops condition body text =
      it.runs (.statement body) >>= fun _ => context >>= fun c =>
        if c.isInterrupted then pure ()
        else it.reads condition >>= fun args => it.loops condition body (Text.unwords args) := by
  have more : it.loops condition body text =
      enough fun fuel => it.rounds condition body fuel (fuel + 1) text :=
    enough_congr (growing_rounds uses text)
      (fun _ _ => rounds_refines uses (Nat.le_add_left _ _) (Nat.succ_le_succ (Nat.le_add_left _ _)) text)
      (fun _ => rounds_refines uses (Nat.le_refl _) (Nat.le_succ _) text)
      (fun _ => rounds_refines uses (Nat.le_succ _) (Nat.le_refl _) text)
  have rereads := growing_arguments uses condition
  have rest : Growing fun fuel => Word.arguments (it.recorded.expand fuel) condition >>= fun args =>
      it.rounds condition body fuel fuel (Text.unwords args) :=
    rereads.bind fun args => growing_rounds uses (Text.unwords args)
  rw [more]
  simp only [rounds_of_true _ _ true]
  rw [enough_bind (growing_runNode uses _) fun _ => rest.unless (), enough_unless rest,
    enough_bind rereads fun args => growing_rounds uses (Text.unwords args)]
  rfl

end

/-- A loop whose condition is false does nothing with enough fuel, either. -/
lemma loops_of_false {text : String} (false : Reading.isTrue text = false) :
    it.loops condition body text = pure () := by
  rw [loops]
  simp only [rounds_of_false _ _ false]
  exact enough_const _

section

variable (uses : it.Uses fun _ handler => handler.Orderly)
include uses

/-- A loop whose body goes through ends if the body has left, and else reads the condition again. -/
lemma loops_of_body {text : String} {s s₁ : State (Recorded σ)} (true : text ≠ "0")
    (ran : it.runs (.statement body) s = some (.ok (), s₁)) :
    it.loops condition body text s =
      if s₁.context.isInterrupted then some (.ok (), s₁)
      else (it.reads condition >>= fun args => it.loops condition body (Text.unwords args)) s₁ := by
  rw [loops_of_true uses (Reading.isTrue_iff.2 true), bind_of_ok ran]
  show (if s₁.context.isInterrupted then _ else _ : Evaluation (Recorded σ) Unit) s₁ = _
  split <;> rfl

/-- A loop that ends in this way does so with enough fuel. -/
lemma loops_of_loopEnds {reading : List String × State (Recorded σ)}
    {ended : Except RuntimeError Unit × State (Recorded σ)}
    (ends : it.LoopEnds condition body reading ended) :
    it.loops condition body (Text.unwords reading.1) reading.2 = some ended := by
  induction ends with
  | false false =>
    rw [false, loops_of_false rfl]
    rfl
  | failed true failed =>
    rw [loops_of_true uses (Reading.isTrue_iff.2 true), bind_of_error failed]
  | left true ran left =>
    rw [loops_of_body uses true ran, if_pos left]
  | unread true ran next unread =>
    rw [loops_of_body uses true ran, if_neg (by simp [next]), bind_of_error unread]
  | round round _ ih =>
    obtain ⟨s₁, ran, next, again⟩ := round.again
    rw [loops_of_body uses round.holds ran, if_neg (by simp [next]), bind_of_ok again]
    exact ih

/-- A loop that has an end has it before its next reading, or goes on from that with a round less. -/
lemma rounds_cases {fuel many : Nat} {args : List String} {s s' : State (Recorded σ)}
    {result : Except RuntimeError Unit}
    (looped : it.rounds condition body fuel many (Text.unwords args) s = some (result, s')) :
    it.LoopEnds condition body (args, s) (result, s') ∨
      ∃ fewer args' s₁, many = fewer + 1 ∧ it.Round condition body (args, s) (args', s₁) ∧
        it.rounds condition body fuel fewer (Text.unwords args') s₁ = some (result, s') := by
  by_cases true : Text.unwords args = "0"
  · rw [true, rounds_of_false _ _ rfl] at looped
    cases looped
    exact .inl (.false true)
  cases many with
  | zero =>
    rw [rounds_zero _ (Reading.isTrue_iff.2 true)] at looped
    cases looped
  | succ many =>
    rw [rounds_of_true _ _ (Reading.isTrue_iff.2 true)] at looped
    rcases bind_cases looped with ⟨_, s₁, ran, rest⟩ | ⟨error, failed, rfl⟩
    · have ran : it.runs (.statement body) s = some (.ok (), s₁) :=
        (enough_eq_some (growing_runNode uses _)).2 ⟨fuel, ran⟩
      change (if s₁.context.isInterrupted then _ else _ : Evaluation (Recorded σ) Unit) s₁ = _ at rest
      cases next : s₁.context.isInterrupted with
      | true =>
        rw [if_pos next] at rest
        cases rest
        exact .inl (.left true ran next)
      | false =>
        rw [if_neg (by simp [next])] at rest
        rcases bind_cases rest with ⟨args', s₂, again, rest⟩ | ⟨error, unread, rfl⟩
        · have again : it.reads condition s₁ = some (.ok args', s₂) :=
            (enough_eq_some (growing_arguments uses _)).2 ⟨fuel, again⟩
          exact .inr ⟨many, args', s₂, rfl, ⟨true, s₁, ran, next, again⟩, rest⟩
        · have unread : it.reads condition s₁ = some (.error error, s') :=
            (enough_eq_some (growing_arguments uses _)).2 ⟨fuel, unread⟩
          exact .inl (.unread true ran next unread)
    · exact .inl (.failed true ((enough_eq_some (growing_runNode uses _)).2 ⟨fuel, failed⟩))

/-- So many rounds end in this way only. -/
lemma loopEnds_of_rounds {fuel many : Nat} {args : List String} {s s' : State (Recorded σ)}
    {result : Except RuntimeError Unit}
    (looped : it.rounds condition body fuel many (Text.unwords args) s = some (result, s')) :
    it.LoopEnds condition body (args, s) (result, s') := by
  induction many generalizing args s with
  | zero =>
    rcases rounds_cases uses looped with ends | ⟨_, _, _, fewer, -⟩
    · exact ends
    · cases fewer
  | succ many ih =>
    rcases rounds_cases uses looped with ends | ⟨_, args', s₁, fewer, round, rest⟩
    · exact ends
    · cases fewer
      exact .round round (ih rest)

/-- With enough fuel a loop ends in this way, and in this way only. -/
lemma loops_eq_some {args : List String} {s : State (Recorded σ)}
    {ended : Except RuntimeError Unit × State (Recorded σ)} :
    it.loops condition body (Text.unwords args) s = some ended ↔
      it.LoopEnds condition body (args, s) ended := by
  constructor
  · intro looped
    obtain ⟨fuel, looped⟩ := (enough_eq_some (growing_rounds uses (Text.unwords args))).1 looped
    exact loopEnds_of_rounds uses looped
  · exact loops_of_loopEnds uses

end

end Interpreter

end Scriptlet
