import Scriptlet.Proofs.Peg.Consumption

/-!
# Every rule has a run

Rules call each other, and loops go on as long as their bodies succeed. That both end can be seen
from the rules alone: the bodies of loops consume, and what a rule calls before anything has been
taken has a lower rank than the rule (`Expr.settled`). From call to call, either there are fewer
tokens or the rank is lower.
-/

namespace Scriptlet.Peg

/-- How many rules may call each other from this one on before a token is taken. -/
def Name.rank {s : Shape} : Name s → Nat
  | file | interactive => 7
  | statements => 6
  | statement => 5
  | command => 4
  | argument => 3
  | piece => 2
  | namePiece => 1
  | block | control | endOfCommand | literal | substitution | callTail | reference
  | vectorExpansion => 0

/-- No rule has this rank. -/
def top : Nat := 8

namespace Expr

/-- Bodies of loops consume, and rules that are called before anything is taken are below the rank. -/
def settled : {s : Shape} → Expr s → (rank : Nat) → Bool
  | _, token _, _ => true
  | _, map body _, k => body.settled k
  | _, pair first second, k =>
    first.settled k && second.settled (if first.consumes then top else k)
  | _, or first second, k => first.settled k && second.settled k
  | _, zeroOrMore body, k => body.consumes && body.settled k
  | _, maybe body, k => body.settled k
  | _, adjacent body, k => body.settled k
  | _, commit _ body, k => body.settled k
  | _, nested body, k => body.settled k
  | _, lookahead body, k => body.settled k
  | _, rule name, k => name.rank < k

/-- The bodies of the loops in the expression. -/
def loops : {s : Shape} → Expr s → List (Sigma Expr)
  | _, token _ => []
  | _, map body _ => body.loops
  | _, pair first second => first.loops ++ second.loops
  | _, or first second => first.loops ++ second.loops
  | _, zeroOrMore body => ⟨_, body⟩ :: body.loops
  | _, maybe body => body.loops
  | _, adjacent body => body.loops
  | _, commit _ body => body.loops
  | _, nested body => body.loops
  | _, lookahead body => body.loops
  | _, rule _ => []

end Expr

variable {s t : Shape} {e : Expr s} {c mid : Cursor} {k : Nat}

section Names

variable (name : Name s)

/-- Every rule is below the top. -/
lemma Name.rank_lt_top : name.rank < top := by
  cases name <;> decide

/-- What a rule calls before it takes anything has a lower rank than the rule. -/
lemma Name.settled_body : name.body.settled name.rank := by
  cases name <;> rfl

end Names

/-- The rules have runs that are called from here, with fewer tokens or below the rank. -/
def Callable (k : Nat) (c : Cursor) : Prop :=
  ∀ (s : Shape) (name : Name s) (below : Cursor),
    below.tokens.length < c.tokens.length ∨
      below.tokens.length = c.tokens.length ∧ name.rank < k →
    ∃ o, Runs (.rule name) below o

/-- What may be called here may be called with fewer tokens. -/
lemma Callable.shorter (calls : Callable k c) (shorter : mid.tokens.length ≤ c.tokens.length) :
    Callable k mid := fun s name below lower => calls s name below (by omega)

/-- Behind something that was taken, every rule is called with fewer tokens. -/
lemma Callable.behind {taken : List Token} (calls : Callable k c) (leaving : Leaving e c taken mid) :
    Callable (if e.consumes then top else k) mid := by
  cases consumes : e.consumes with
  | false => exact calls.shorter leaving.takes.suffix.length_le
  | true =>
    have shorter := leaving.shorter consumes
    exact fun s name below lower => calls s name below (by omega)

/-- A loop ends that has a body that consumes: it goes on with fewer tokens. -/
lemma loop_has_run (consumes : e.consumes)
    (each : ∀ mid, mid.tokens.length ≤ c.tokens.length → ∃ o, Runs e mid o) :
    ∃ o, Runs (.zeroOrMore e) c o := by
  induction size : c.tokens.length using Nat.strongRecOn generalizing c with
  | ind size ih =>
    obtain ⟨o, round⟩ := each c (Nat.le_refl _)
    match o with
    | .absent => exact ⟨_, .stop round⟩
    | .failed error => exact ⟨_, .more_failed round⟩
    | .done value mid =>
      obtain ⟨taken, leaving⟩ := round.leaving
      have shorter := leaving.shorter consumes
      obtain ⟨o, rounds⟩ := ih mid.tokens.length (by omega)
        (fun behind shorter => each behind (by omega)) rfl
      exact ⟨_, .more round rounds⟩

/-- A settled expression has a run if the rules that it calls have. -/
lemma Expr.has_run_of_callable (e : Expr s) (settled : e.settled k) (calls : Callable k c) :
    ∃ o, Runs e c o := by
  -- along the expression; a rule that it calls is ahead of fewer tokens or has a lower rank
  induction e generalizing k c with
  | token kind =>
    match read : c.tokens with
    | [] => exact ⟨_, .token_absent (by simp [read])⟩
    | t :: rest =>
      by_cases same : t.kind = kind
      · exact ⟨_, .token read same⟩
      · exact ⟨_, .token_absent (by simpa [read] using same)⟩
  | map body f ih =>
    obtain ⟨o, runs⟩ := ih settled calls
    exact ⟨_, .map runs⟩
  | pair first second ih ih' =>
    rw [Expr.settled, Bool.and_eq_true] at settled
    obtain ⟨o, runs⟩ := ih settled.1 calls
    match o with
    | .absent => exact ⟨_, .pair_absent runs⟩
    | .failed error => exact ⟨_, .pair_failed runs⟩
    | .done value mid =>
      obtain ⟨taken, leaving⟩ := runs.leaving
      obtain ⟨o, runs'⟩ := ih' settled.2 (calls.behind leaving)
      exact ⟨_, .pair runs runs'⟩
  | or first second ih ih' =>
    rw [Expr.settled, Bool.and_eq_true] at settled
    obtain ⟨o, runs⟩ := ih settled.1 calls
    by_cases present : o = .absent
    · subst present
      obtain ⟨o, runs'⟩ := ih' settled.2 calls
      exact ⟨_, .or_second runs runs'⟩
    · exact ⟨_, .or runs present⟩
  | zeroOrMore body ih =>
    rw [Expr.settled, Bool.and_eq_true] at settled
    exact loop_has_run settled.1 fun mid shorter => ih settled.2 (calls.shorter shorter)
  | maybe body ih =>
    obtain ⟨o, runs⟩ := ih settled calls
    exact ⟨_, .maybe runs⟩
  | adjacent body ih =>
    match read : c.tokens with
    | [] => exact ⟨_, .adjacent_absent (by simp [read])⟩
    | t :: rest =>
      cases near : t.spaced with
      | true => exact ⟨_, .adjacent_absent (by simpa [read] using near)⟩
      | false =>
        obtain ⟨o, runs⟩ := ih settled calls
        exact ⟨_, .adjacent read near runs⟩
  | commit fault body ih =>
    obtain ⟨o, runs⟩ := ih settled calls
    exact ⟨_, .commit runs⟩
  | nested body ih =>
    by_cases full : c.Full
    · exact ⟨_, .nested_failed full⟩
    · obtain ⟨o, runs⟩ := ih (c := c.deeper) settled calls
      exact ⟨_, .nested full runs⟩
  | lookahead body ih =>
    obtain ⟨o, runs⟩ := ih settled calls
    exact ⟨_, .lookahead runs⟩
  | rule name => exact calls _ name c (.inr ⟨rfl, of_decide_eq_true settled⟩)

/-- Every rule has a run, wherever it starts. -/
theorem Name.has_run {s : Shape} (name : Name s) (c : Cursor) : ∃ o, Runs (.rule name) c o := by
  obtain ⟨o, runs⟩ := name.body.has_run_of_callable name.settled_body
    fun s below mid lower => below.has_run mid
  exact ⟨o, .rule runs⟩
termination_by (c.tokens.length, name.rank)
decreasing_by exact Prod.lex_def.2 lower

/-- So has every settled expression. -/
lemma Expr.has_run (settled : e.settled k) (c : Cursor) : ∃ o, Runs e c o :=
  e.has_run_of_callable settled fun _ name below _ => name.has_run below

/-- What is settled at a rank is settled at every rank above those of the rules. -/
lemma Expr.settled_top (settled : e.settled k) (below : k ≤ top) : e.settled top := by
  induction e generalizing k with
  | token kind => rfl
  | map body f ih => exact ih settled below
  | pair first second ih ih' =>
    rw [Expr.settled, Bool.and_eq_true] at settled ⊢
    refine ⟨ih settled.1 below, ?_⟩
    cases consumes : first.consumes with
    | true => simpa [consumes] using settled.2
    | false => exact ih' (by simpa [consumes] using settled.2) below
  | or first second ih ih' =>
    rw [Expr.settled, Bool.and_eq_true] at settled ⊢
    exact ⟨ih settled.1 below, ih' settled.2 below⟩
  | zeroOrMore body ih =>
    rw [Expr.settled, Bool.and_eq_true] at settled ⊢
    exact ⟨settled.1, ih settled.2 below⟩
  | maybe body ih | adjacent body ih | commit fault body ih | nested body ih | lookahead body ih =>
    exact ih settled below
  | rule name => exact decide_eq_true name.rank_lt_top

/-- The bodies of the loops of a settled expression consume, and are settled. -/
lemma Expr.settled_loops (settled : e.settled k) (below : k ≤ top) :
    ∀ loop ∈ e.loops, loop.2.consumes ∧ loop.2.settled top := by
  induction e generalizing k with
  | token kind | rule name => exact fun _ none => absurd none List.not_mem_nil
  | pair first second ih ih' =>
    rw [Expr.settled, Bool.and_eq_true] at settled
    refine List.forall_mem_append.2 ⟨ih settled.1 below, ih' settled.2 ?_⟩
    split
    · exact Nat.le_refl _
    · exact below
  | or first second ih ih' =>
    rw [Expr.settled, Bool.and_eq_true] at settled
    exact List.forall_mem_append.2 ⟨ih settled.1 below, ih' settled.2 below⟩
  | zeroOrMore body ih =>
    rw [Expr.settled, Bool.and_eq_true] at settled
    exact List.forall_mem_cons.2 ⟨⟨settled.1, settled_top settled.2 below⟩, ih settled.2 below⟩
  | map body f ih | maybe body ih | adjacent body ih | commit fault body ih | nested body ih
  | lookahead body ih => exact ih settled below

/-- Rules repeat separators, separated statements, arguments and adjacent pieces. -/
lemma Name.loops_subset (name : Name s) :
    name.body.loops ⊆
      [⟨_, .separator⟩, ⟨_, .separated⟩, ⟨_, .rule .argument⟩, ⟨_, .adjacentPiece⟩] := by
  cases name <;>
    simp [Name.body, Expr.loops, Expr.left, Expr.right, Expr.cut, Expr.separator, Expr.separated,
      Expr.adjacentPiece, Expr.closedArguments, Expr.sigilName, Expr.vectorTarget]

end Scriptlet.Peg
