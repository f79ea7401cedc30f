import Scriptlet.Proofs.Peg.Basic

/-!
# What runs take

An expression leaves the last of its tokens, at the depth it started from (`Runs.leaving`). Whether
it takes a token whenever it is done can be seen from the expression alone (`Expr.consumes`), and so
can whether one of the tokens may be the end marker (`Expr.ends`).
-/

namespace Scriptlet.Peg

/-- From the first cursor to the second, the tokens in between were taken and nothing else changed. -/
structure Cursor.Takes (c : Cursor) (taken : List Token) (rest : Cursor) : Prop where
  tokens : c.tokens = taken ++ rest.tokens
  depth : rest.depth = c.depth
  maxDepth : rest.maxDepth = c.maxDepth

namespace Cursor

variable {c mid rest : Cursor} {taken taken' : List Token}

/-- To stay is to take nothing. -/
lemma Takes.refl (c : Cursor) : c.Takes [] c :=
  ⟨rfl, rfl, rfl⟩

/-- What is taken in two parts is taken in turn. -/
lemma Takes.trans (first : c.Takes taken mid) (second : mid.Takes taken' rest) :
    c.Takes (taken ++ taken') rest where
  tokens := by rw [first.tokens, second.tokens, List.append_assoc]
  depth := second.depth.trans first.depth
  maxDepth := second.maxDepth.trans first.maxDepth

/-- What was taken one level deeper is taken here, with the depth restored. -/
lemma Takes.surface (inner : c.deeper.Takes taken rest) :
    c.Takes taken { rest with depth := c.depth } :=
  ⟨inner.tokens, rfl, inner.maxDepth⟩

/-- The tokens that are left are the last ones. -/
lemma Takes.suffix (takes : c.Takes taken rest) : rest.tokens <:+ c.tokens :=
  ⟨taken, takes.tokens.symm⟩

/-- What is taken and what is left are all the tokens. -/
lemma Takes.length (takes : c.Takes taken rest) :
    c.tokens.length = taken.length + rest.tokens.length := by
  rw [takes.tokens, List.length_append]

end Cursor

/-- The rules that take a token whenever they are done. -/
def Name.consumes {s : Shape} : Name s → Bool
  | statements | endOfCommand => false
  | _ => true

/-- The rules that may take the end marker. -/
def Name.ends {s : Shape} : Name s → Bool
  | file | interactive => true
  | _ => false

namespace Expr

/-- The expression takes a token whenever it is done. -/
def consumes : {s : Shape} → Expr s → Bool
  | _, token _ => true
  | _, map body _ => body.consumes
  | _, pair first second => first.consumes || second.consumes
  | _, or first second => first.consumes && second.consumes
  | _, zeroOrMore _ => false
  | _, maybe _ => false
  | _, adjacent body => body.consumes
  | _, commit _ body => body.consumes
  | _, nested body => body.consumes
  | _, lookahead _ => false
  | _, rule name => name.consumes

/-- The expression may take the end marker. -/
def ends : {s : Shape} → Expr s → Bool
  | _, token kind => kind = .endMarker
  | _, map body _ => body.ends
  | _, pair first second => first.ends || second.ends
  | _, or first second => first.ends || second.ends
  | _, zeroOrMore body => body.ends
  | _, maybe body => body.ends
  | _, adjacent body => body.ends
  | _, commit _ body => body.ends
  | _, nested body => body.ends
  | _, lookahead _ => false
  | _, rule name => name.ends

end Expr

variable {s t : Shape} {e : Expr s} {c rest : Cursor} {o : Outcome s.Value}

namespace Outcome

variable {α β : Type} {outcome : Outcome α} {property weaker : Cursor → Prop}

/-- An outcome that leaves what has a property leaves what has a weaker one. -/
lemma Leaves.imp (leaves : outcome.Leaves property) (weaken : ∀ rest, property rest → weaker rest) :
    outcome.Leaves weaker := by
  cases outcome with
  | done value rest => exact weaken rest leaves
  | absent | failed => trivial

/-- A map over the value leaves the same. -/
@[simp] lemma leaves_map {f : α → β} : (outcome.map f).Leaves property ↔ outcome.Leaves property := by
  cases outcome <;> rfl

/-- An outcome that is made an error where it is absent leaves the same. -/
@[simp] lemma leaves_orError {error : ParseError} :
    (outcome.orError error).Leaves property ↔ outcome.Leaves property := by
  cases outcome <;> rfl

/-- To set the depth is to set it on what is left. -/
@[simp] lemma leaves_atDepth {depth : Nat} :
    (outcome.atDepth depth).Leaves property ↔
      outcome.Leaves fun rest => property { rest with depth } := by
  cases outcome <;> rfl

/-- An optional part leaves what the part leaves or everything. -/
lemma Leaves.orNothing {c : Cursor} (leaves : outcome.Leaves property) (all : property c) :
    (outcome.orNothing c).Leaves property := by
  cases outcome with
  | done value rest => exact leaves
  | absent => exact all
  | failed => trivial

/-- A rewound outcome leaves everything. -/
lemma Leaves.rewind {c : Cursor} (all : property c) : (outcome.rewind c).Leaves property := by
  cases outcome with
  | done value rest => exact all
  | absent | failed => trivial

end Outcome

section Names

variable (name : Name s)

/-- The body of a rule that consumes consumes. -/
lemma Name.consumes_body : name.consumes → name.body.consumes := by
  cases name <;> decide

/-- The body of a rule ends only if the rule does. -/
lemma Name.ends_body : name.body.ends → name.ends := by
  cases name <;> decide

end Names

/-- From the first cursor to the second, the expression may have taken the tokens in between. -/
structure Leaving (e : Expr s) (c : Cursor) (taken : List Token) (rest : Cursor) : Prop where
  takes : c.Takes taken rest
  consumed : e.consumes → taken ≠ []
  unended : e.ends = false → ∀ t ∈ taken, t.kind ≠ .endMarker

namespace Leaving

variable {taken taken' : List Token} {mid : Cursor} {first : Expr s} {second : Expr t}

/-- An expression that need not consume may have taken nothing. -/
lemma nothing (idle : e.consumes = false) (c : Cursor) : Leaving e c [] c where
  takes := .refl c
  consumed := by simp [idle]
  unended _ _ none := absurd none List.not_mem_nil

/-- Another expression may have taken the tokens too, if it consumes only where this one does, and may
take the end marker where this one may. -/
lemma weaken {other : Expr t} (leaving : Leaving e c taken rest)
    (consumed : other.consumes → e.consumes) (unended : e.ends → other.ends) :
    Leaving other c taken rest where
  takes := leaving.takes
  consumed h := leaving.consumed (consumed h)
  unended h := leaving.unended (by simpa using mt unended (by simp [h]))

/-- What consumes leaves fewer tokens. -/
lemma shorter (leaving : Leaving e c taken rest) (consumes : e.consumes) :
    rest.tokens.length < c.tokens.length := by
  have some := List.length_pos_iff.2 (leaving.consumed consumes)
  have split := leaving.takes.length
  omega

/-- Two that are run in turn take the tokens of both. -/
lemma pair (before : Leaving first c taken mid) (behind : Leaving second mid taken' rest) :
    Leaving (.pair first second) c (taken ++ taken') rest where
  takes := before.takes.trans behind.takes
  consumed h := by
    rw [Ne, List.append_eq_nil_iff]
    rintro ⟨none, none'⟩
    obtain consumes | consumes := Bool.or_eq_true .. ▸ h
    · exact before.consumed consumes none
    · exact behind.consumed consumes none'
  unended h := by
    obtain ⟨unended, unended'⟩ := Bool.or_eq_false_iff.1 h
    exact List.forall_mem_append.2 ⟨before.unended unended, behind.unended unended'⟩

/-- A round and further rounds take the tokens of both. -/
lemma more (round : Leaving e c taken mid) (rounds : Leaving (.zeroOrMore e) mid taken' rest) :
    Leaving (.zeroOrMore e) c (taken ++ taken') rest where
  takes := round.takes.trans rounds.takes
  consumed := nofun
  unended h := List.forall_mem_append.2 ⟨round.unended h, rounds.unended h⟩

end Leaving

/-- What a run leaves are the last of the tokens, at the depth it started from. -/
lemma Runs.leaving (runs : Runs e c o) : o.Leaves fun rest => ∃ taken, Leaving e c taken rest := by
  induction runs with
  | @token kind c t rest read same =>
    refine ⟨[t], ⟨read, rfl, rfl⟩, fun _ => List.cons_ne_nil _ _, fun apart => ?_⟩
    rw [List.forall_mem_singleton, same]
    exact of_decide_eq_false apart
  | map _ ih => exact Outcome.leaves_map.2 (ih.imp fun _ ⟨taken, leaving⟩ =>
      ⟨taken, leaving.weaken id id⟩)
  | pair _ _ ih ih' =>
    obtain ⟨taken, before⟩ := ih
    exact Outcome.leaves_map.2 (ih'.imp fun _ ⟨_, behind⟩ => ⟨_, before.pair behind⟩)
  | or _ _ ih =>
    exact ih.imp fun _ ⟨taken, leaving⟩ =>
      ⟨taken, leaving.weaken (fun h => (Bool.and_eq_true .. ▸ h).1) fun h => by simp [Expr.ends, h]⟩
  | or_second _ _ _ ih =>
    exact ih.imp fun _ ⟨taken, leaving⟩ =>
      ⟨taken, leaving.weaken (fun h => (Bool.and_eq_true .. ▸ h).2) fun h => by simp [Expr.ends, h]⟩
  | more _ _ ih ih' =>
    obtain ⟨taken, round⟩ := ih
    exact Outcome.leaves_map.2 (ih'.imp fun _ ⟨_, rounds⟩ => ⟨_, round.more rounds⟩)
  | stop => exact ⟨[], .nothing rfl _⟩
  | maybe _ ih =>
    exact Outcome.Leaves.orNothing (ih.imp fun _ ⟨taken, leaving⟩ => ⟨taken, leaving.weaken nofun id⟩)
      ⟨[], .nothing rfl _⟩
  | adjacent _ _ _ ih => exact ih.imp fun _ ⟨taken, leaving⟩ => ⟨taken, leaving.weaken id id⟩
  | commit _ ih => exact Outcome.leaves_orError.2 (ih.imp fun _ ⟨taken, leaving⟩ =>
      ⟨taken, leaving.weaken id id⟩)
  | nested _ _ ih =>
    exact Outcome.leaves_atDepth.2 (ih.imp fun _ ⟨taken, leaving⟩ =>
      ⟨taken, leaving.takes.surface, leaving.consumed, leaving.unended⟩)
  | lookahead => exact Outcome.Leaves.rewind ⟨[], .nothing rfl _⟩
  | @rule _ name _ _ _ ih =>
    exact ih.imp fun _ ⟨taken, leaving⟩ =>
      ⟨taken, leaving.weaken name.consumes_body name.ends_body⟩
  | token_absent | pair_absent | pair_failed | more_failed | adjacent_absent | nested_failed =>
    trivial

end Scriptlet.Peg
