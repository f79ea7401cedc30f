import Scriptlet.Proofs.Errors.Origin
import Scriptlet.Proofs.Errors.Written

/-!
# The texts that places belong to

A location is a place in the text from which the statement was read that runs. That is the text of
the run until a call is served by a definition, whose body may have been read from a text before
(`Interpreter.Home`). Every evaluation places its errors, and the calls that it makes, in the text of
what runs (`Evaluation.Points`).
-/

namespace Scriptlet

variable {σ α β : Type}

namespace Interpreter

/-- At these moments of a run of the text, what runs in the innermost of the calls was read from a
text: from that of the run or, in a call that a definition serves and in all that it calls, from one
of the texts in which the body of the definition stands. -/
inductive Home (it : Interpreter σ) (texts : List String) (text : String) (moments : List Moment) :
    List ActiveCall → String → Prop
  | run : Home it texts text moments [] text
  | handler {calls : List ActiveCall} {call : ActiveCall} {here : String} {moment : Moment} :
    Home it texts text moments calls here → moment ∈ moments → moment.event = .handler call →
    moment.context.scopes.backtrace = calls ++ [call] →
    Home it texts text moments (calls ++ [call]) here
  | definition {calls : List ActiveCall} {call : ActiveCall} {here other : String}
    {moment : Moment} {definition : Definition} :
    Home it texts text moments calls here → moment ∈ moments → moment.event = .definition call →
    moment.context.scopes.backtrace = calls ++ [call] →
    moment.context.definition? call.kind call.name = some definition → other ∈ texts →
    definition.body.Over (it.Writes other) →
    Home it texts text moments (calls ++ [call]) other

/-- Each of the calls is at a token of the text in which it stands. -/
def Placed (it : Interpreter σ) (texts : List String) (text : String) (moments : List Moment)
    (calls : List ActiveCall) : Prop :=
  ∀ outer call inner, calls = outer ++ call :: inner →
    ∃ here, it.Home texts text moments outer here ∧ it.TokenStart here call.location

/-- The error, if it has a place, is at a token of the text in which what failed stands, or at the
innermost call; and the calls of its backtrace are at tokens of the texts in which they stand. -/
def Pointed (it : Interpreter σ) (texts : List String) (text : String) (moments : List Moment)
    (error : RuntimeError) : Prop :=
  ∀ location, error.location = some location →
    it.Placed texts text moments error.backtrace ∧
      ((∃ here, it.Home texts text moments error.backtrace here ∧ it.TokenStart here location) ∨
        ∃ outer call, error.backtrace = outer ++ [call] ∧ call.location = location)

variable {it : Interpreter σ} {texts : List String} {text here : String}
  {moments moments' : List Moment} {calls : List ActiveCall}

/-- A text that calls were at home in stays their home when more happens. -/
lemma Home.mono (more : moments <+: moments') (h : it.Home texts text moments calls here) :
    it.Home texts text moments' calls here := by
  induction h with
  | run => exact .run
  | handler _ mem event within ih => exact .handler ih (more.subset mem) event within
  | definition _ mem event within defined listed written ih =>
    exact .definition ih (more.subset mem) event within defined listed written

/-- A home is one of the texts. -/
lemma Home.mem (listed : text ∈ texts) (h : it.Home texts text moments calls here) :
    here ∈ texts := by
  induction h with
  | run => exact listed
  | handler _ _ _ _ ih => exact ih
  | definition _ _ _ _ _ other _ _ => exact other

/-- A place among what has happened stays one when more happens. -/
lemma Placed.mono (more : moments <+: moments') (h : it.Placed texts text moments calls) :
    it.Placed texts text moments' calls := by
  intro outer call inner split
  obtain ⟨here, home, start⟩ := h outer call inner split
  exact ⟨here, home.mono more, start⟩

/-- A call that is made in its text is placed with those around it. -/
lemma Placed.push (h : it.Placed texts text moments calls)
    (home : it.Home texts text moments calls here) {call : ActiveCall}
    (start : it.TokenStart here call.location) :
    it.Placed texts text moments (calls ++ [call]) := by
  intro outer other inner split
  rcases List.eq_nil_or_concat inner with rfl | ⟨front, last, rfl⟩
  · obtain ⟨rfl, same⟩ := List.append_inj' split rfl
    cases same
    exact ⟨here, home, start⟩
  · rw [List.concat_eq_append, ← List.cons_append, ← List.append_assoc] at split
    obtain ⟨same, -⟩ := List.append_inj' split rfl
    exact h outer other front same

/-- A fresh fault points nowhere. -/
lemma Pointed.ofFault (fault : Fault) : it.Pointed texts text moments (.ofFault fault) := by
  intro location placed
  cases placed

/-- An error without a place is placed at the innermost call. -/
lemma Pointed.locate {error : RuntimeError} (h : it.Pointed texts text moments error)
    {call : ActiveCall} (placed : it.Placed texts text moments (calls ++ [call])) :
    it.Pointed texts text moments (error.locate call.location (calls ++ [call])) := by
  cases place : error.location with
  | some location =>
    rw [RuntimeError.locate_of_isSome (place ▸ rfl)]
    exact h
  | none =>
    rw [RuntimeError.locate_of_none place]
    intro location same
    exact ⟨placed, .inr ⟨calls, call, rfl, Option.some.inj same⟩⟩

/-- If there is but one text, everything is placed in it. -/
lemma Placed.alone (h : it.Placed [text] text moments calls) :
    ∀ call ∈ calls, it.TokenStart text call.location := by
  intro call mem
  obtain ⟨outer, inner, split⟩ := List.append_of_mem mem
  obtain ⟨here, home, start⟩ := h outer call inner split
  obtain rfl := List.mem_singleton.1 (home.mem (List.mem_singleton_self _))
  exact start

/-- With one text only, an error and its calls point at tokens of it. -/
lemma Pointed.alone {error : RuntimeError} (h : it.Pointed [text] text moments error)
    {location : Location} (place : error.location = some location) :
    it.TokenStart text location ∧ ∀ call ∈ error.backtrace, it.TokenStart text call.location := by
  obtain ⟨placed, ⟨here, home, start⟩ | ⟨outer, call, split, rfl⟩⟩ := h location place
  · obtain rfl := List.mem_singleton.1 (home.mem (List.mem_singleton_self _))
    exact ⟨start, placed.alone⟩
  · refine ⟨placed.alone call ?_, placed.alone⟩
    rw [split]
    exact List.mem_append_right _ (List.mem_singleton_self _)

end Interpreter

namespace Evaluation

open Interpreter

variable {it : Interpreter σ} {texts : List String} {text here : String}
  {s s' : State (Recorded σ)}

/-- The body of every definition was read from one of the texts. -/
def Known (it : Interpreter σ) (texts : List String) (c : Context) : Prop :=
  ∀ key definition, c.definitions.get? key = some definition →
    ∃ other ∈ texts, definition.body.Over (it.Writes other)

/-- What comes from some texts comes from more texts. -/
lemma Known.mono {more : List String} {c : Context} (known : Known it texts c)
    (subset : texts ⊆ more) : Known it more c := by
  intro key definition found
  obtain ⟨other, listed, written⟩ := known key definition found
  exact ⟨other, subset listed, written⟩

/-- A statement of this text may run here. -/
structure Sits (it : Interpreter σ) (texts : List String) (text here : String)
    (s : State (Recorded σ)) : Prop where
  listed : here ∈ texts
  known : Known it texts s.context
  home : it.Home texts text s.host.moments s.context.scopes.backtrace here
  placed : it.Placed texts text s.host.moments s.context.scopes.backtrace

/-- From the one state to the other, the same calls are in progress, no moment is forgotten, and
nothing unknown is defined. -/
structure Leads (it : Interpreter σ) (texts : List String) (s s' : State (Recorded σ)) : Prop where
  shape : s'.context.scopes.shape = s.context.scopes.shape
  moments : s.host.moments <+: s'.host.moments
  known : Known it texts s.context → Known it texts s'.context

/-- A state leads to itself. -/
lemma Leads.refl (s : State (Recorded σ)) : Leads it texts s s :=
  ⟨rfl, List.prefix_rfl, id⟩

/-- What leads on from a state is handed on. -/
lemma Leads.trans {t : State (Recorded σ)} (first : Leads it texts s s')
    (second : Leads it texts s' t) : Leads it texts s t :=
  ⟨second.shape.trans first.shape, first.moments.trans second.moments, second.known ∘ first.known⟩

/-- A run that goes on sits in the same text. -/
lemma Sits.leads (h : Sits it texts text here s) (leads : Leads it texts s s') :
    Sits it texts text here s' := by
  have same := ScopeStack.backtrace_eq_of_shape leads.shape
  refine ⟨h.listed, leads.known h.known, ?_, ?_⟩
  · exact same ▸ h.home.mono leads.moments
  · exact same ▸ h.placed.mono leads.moments

/-- However the evaluation ends from this state, it leads there, and points to where it failed. -/
def PointsFrom (it : Interpreter σ) (texts : List String) (text : String)
    (s : State (Recorded σ)) (x : Evaluation (Recorded σ) α) : Prop :=
  ∀ result s', x s = some (result, s') → Leads it texts s s' ∧
    ∀ error, result = .error error → it.Pointed texts text s'.host.moments error

/-- The evaluation points to where it fails wherever a statement of this text may run. -/
def Points (it : Interpreter σ) (texts : List String) (text here : String)
    (x : Evaluation (Recorded σ) α) : Prop :=
  ∀ s, Sits it texts text here s → PointsFrom it texts text s x

namespace PointsFrom

variable {x : Evaluation (Recorded σ) α} {f : α → Evaluation (Recorded σ) β}

/-- A value points nowhere. -/
lemma pure (value : α) : PointsFrom it texts text s (Pure.pure value) := by
  intro result s' e
  cases e
  exact ⟨.refl s, fun _ same => by cases same⟩

/-- A fault points nowhere. -/
lemma fail (fault : Fault) :
    PointsFrom it texts text s (Evaluation.fail fault : Evaluation (Recorded σ) α) := by
  intro result s' e
  cases e
  exact ⟨.refl s, fun _ same => by cases same; exact .ofFault fault⟩

/-- The second part may take for granted that the first went through. -/
lemma bind (h : PointsFrom it texts text s x)
    (rest : ∀ value s₁, x s = some (.ok value, s₁) → Leads it texts s s₁ →
      PointsFrom it texts text s₁ (f value)) : PointsFrom it texts text s (x >>= f) := by
  intro result s' e
  rcases bind_cases e with ⟨value, s₁, first, later⟩ | ⟨error, failed, rfl⟩
  · obtain ⟨leads, -⟩ := h _ _ first
    obtain ⟨onwards, pointed⟩ := rest value s₁ first leads _ _ later
    exact ⟨leads.trans onwards, pointed⟩
  · obtain ⟨leads, pointed⟩ := h _ _ failed
    exact ⟨leads, fun _ same => by cases same; exact pointed error rfl⟩

/-- An error that is passed on is the error of what was attempted. -/
lemma attempt_bind {f : Except RuntimeError α → Evaluation (Recorded σ) β}
    (passes : ∀ error, f (.error error) = raise error) (h : PointsFrom it texts text s x)
    (rest : ∀ value s₁, Leads it texts s s₁ → PointsFrom it texts text s₁ (f (.ok value))) :
    PointsFrom it texts text s (attempt x >>= f) := by
  rw [Evaluation.attempt_bind passes]
  exact h.bind fun value s₁ _ => rest value s₁

/-- A call in its own frame points to where it failed, or at itself. -/
lemma inFrame (sits : Sits it texts text here s) {call : ActiveCall} {owns : Bool}
    (start : it.TokenStart here call.location)
    (h : PointsFrom it texts text (withScopes (·.push (.ofCall call owns)) s) x) :
    PointsFrom it texts text s (Evaluation.inFrame (.ofCall call owns) x) := by
  intro result s' e
  obtain ⟨inner, s₁, ended, rfl, outcome⟩ := inFrame_cases e
  obtain ⟨leads, pointed⟩ := h _ _ ended
  have left : Leads it texts s (withScopes (·.pop) s₁) :=
    ⟨ScopeStack.shape_pop leads.shape, leads.moments, leads.known⟩
  refine ⟨left, fun error same => ?_⟩
  rcases outcome with ⟨_, -, rfl⟩ | ⟨raised, rfl, rfl⟩
  · cases same
  · cases same
    have calls : s₁.context.scopes.backtrace = s.context.scopes.backtrace ++ [call] :=
      (ScopeStack.backtrace_eq_of_shape leads.shape).trans (ScopeStack.backtrace_push _ _)
    rw [calls]
    refine (pointed raised rfl).locate ?_
    exact (sits.placed.mono leads.moments).push (sits.home.mono leads.moments) start

end PointsFrom

namespace Points

variable {x : Evaluation (Recorded σ) α} {f : α → Evaluation (Recorded σ) β}

/-- A value points nowhere, wherever the run sits. -/
lemma pure (value : α) : Points it texts text here (Pure.pure value) :=
  fun _ _ => .pure value

/-- What both parts of an evaluation point at, the evaluation does. -/
lemma bind (h : Points it texts text here x) (rest : ∀ value, Points it texts text here (f value)) :
    Points it texts text here (x >>= f) :=
  fun s sits => (h s sits).bind fun value s₁ _ leads => rest value s₁ (sits.leads leads)

/-- What is looked at points nowhere. -/
lemma context {f : Context → Evaluation (Recorded σ) β}
    (rest : ∀ c, Points it texts text here (f c)) :
    Points it texts text here (Evaluation.context >>= f) :=
  fun s sits => rest s.context s sits

/-- A fault at a token of what runs is at its place. -/
lemma failAt {location : Location} (start : it.TokenStart here location) (fault : Fault) :
    Points it texts text here (Evaluation.failAt location fault : Evaluation (Recorded σ) α) := by
  intro s sits result s' e
  cases e
  refine ⟨.refl s, fun error same => ?_⟩
  cases same
  intro place located
  cases located
  exact ⟨sits.placed, .inl ⟨here, sits.home, start⟩⟩

/-- What can be done at once can be done first. -/
lemma after (leads : Leads it texts s s') (h : Points it texts text here x)
    (sits : Sits it texts text here s) {result : Except RuntimeError α} {t : State (Recorded σ)}
    (e : x s' = some (result, t)) :
    Leads it texts s t ∧
      ∀ error, result = .error error → it.Pointed texts text t.host.moments error := by
  obtain ⟨onwards, pointed⟩ := h s' (sits.leads leads) _ _ e
  exact ⟨leads.trans onwards, pointed⟩

/-- A change that keeps the calls and what is known points nowhere. -/
lemma modify {change : Context → Context}
    (shape : ∀ c, (change c).scopes.shape = c.scopes.shape)
    (known : ∀ c, Known it texts c → Known it texts (change c)) :
    Points it texts text here (Evaluation.modify change : Evaluation (Recorded σ) Unit) := by
  intro s sits result s' e
  cases e
  exact ⟨⟨shape _, List.prefix_rfl, known _⟩, fun _ same => by cases same⟩

end Points

/-- Words point at their text, if each of them does. -/
lemma evaluateAll_points {expand : Expand (Recorded σ)} {words : List (Word Token)}
    (each : ∀ word ∈ words, Points it texts text here (word.evaluate expand)) :
    Points it texts text here (Word.evaluateAll expand words) := by
  induction words with
  | nil =>
    rw [Word.evaluateAll]
    exact .pure []
  | cons word words ih =>
    rw [Word.evaluateAll]
    obtain ⟨first, rest⟩ := List.forall_mem_cons.1 each
    exact first.bind fun _ => (ih rest).bind fun _ => .pure _

section

variable {expand : Expand (Recorded σ)}
  (expands : ∀ origin name args, (Word.substitution origin name args).Over (it.Writes here) →
    Points it texts text here (expand origin name args))
include expands

/-- A word that is evaluated in its text points to where it fails. -/
lemma evaluate_points {word : Word Token} (written : word.Over (it.Writes here)) :
    Points it texts text here (word.evaluate expand) := by
  induction written with
  | literal =>
    rw [Word.evaluate]
    exact .pure _
  | @reference origin name token _ ih =>
    rw [Word.evaluate]
    refine ih.bind fun value => .context fun c => ?_
    cases c.get? value with
    | some text => exact .pure text
    | none => exact .failAt ⟨origin, token, rfl⟩ _
  | substitution token name args =>
    rw [Word.evaluate]
    exact expands _ _ _ (.substitution token name args)
  | vector _ _ ih =>
    rw [Word.evaluate]
    exact ih.bind fun _ => .pure _
  | glued _ _ ih =>
    rw [Word.evaluate]
    exact (evaluateAll_points ih).bind fun _ => .pure _

/-- The arguments of a word point at the text that it is written in. -/
lemma slots_points {word : Word Token} (written : word.Over (it.Writes here)) :
    Points it texts text here (word.slots expand) := by
  rw [Word.slots]
  refine (evaluate_points expands written).bind fun value => ?_
  split
  · exact .pure _
  · exact .pure _

/-- Arguments point at the text that they are written in. -/
lemma arguments_points {words : List (Word Token)}
    (written : ∀ word ∈ words, word.Over (it.Writes here)) :
    Points it texts text here (Word.arguments expand words) := by
  induction words with
  | nil =>
    rw [Word.arguments]
    exact .pure []
  | cons word words ih =>
    rw [Word.arguments]
    obtain ⟨first, rest⟩ := List.forall_mem_cons.1 written
    exact (slots_points expands first).bind fun _ => (ih rest).bind fun _ => .pure _

end

/-- A change that defines nothing but what stands in the texts leaves nothing unknown. -/
lemma Known.update {c : Context} (known : Known it texts c) {body : Option (Statement Token)}
    {change : Update} (takes : change.Takes body) (listed : here ∈ texts)
    (written : ∀ statement, body = some statement → statement.Over (it.Writes here)) :
    Known it texts (c.update change) := by
  cases change with
  | define definition =>
    intro key other found
    change (c.definitions.insert _ _).get? _ = _ at found
    rw [Table.get?_insert] at found
    split at found
    · cases found
      exact ⟨here, listed, written _ (takes _ rfl)⟩
    · exact known key other found
  | leave result =>
    rw [Context.update]
    split
    · exact known
    · exact known
  | _ => exact known

/-- A plain action points to where what it runs fails, and its own faults have no place. -/
lemma ofAction_points {body : Evaluation (Recorded σ) Unit}
    {arguments : Evaluation (Recorded σ) (List String)} {rounds n : Nat}
    (bodies : Points it texts text here body) (rereads : Points it texts text here arguments)
    {decided : Option (Statement Token)}
    (written : ∀ statement, decided = some statement → statement.Over (it.Writes here))
    {a b : Action σ α} (plain : Action.PlainShort (Update.Takes decided) n a b) :
    Points it texts text here (ofAction body arguments rounds a.recorded) := by
  induction plain with
  | done answer => exact .pure answer
  | fail fault => exact fun _ _ => .fail fault
  | inspect _ ih => exact .context ih
  | update takes _ ih =>
    intro s sits result s' e
    refine Points.after ?_ ih sits e
    refine ⟨s.context.shape_update _, List.prefix_rfl, fun known => ?_⟩
    exact known.update takes sits.listed written
  | readHost _ ih => exact fun s sits => ih s.host.host s sits
  | writeHost host _ ih =>
    intro s sits result s' e
    have leads : Leads it texts s ⟨s.context, host, s.host.moments⟩ := ⟨rfl, List.prefix_rfl, id⟩
    exact Points.after leads ih sits e
  | @runBody _ f _ passes _ _ ih =>
    intro s sits
    refine .attempt_bind (fun error => ?_) (bodies s sits) fun _ s₁ leads =>
      ih s₁ (sits.leads leads)
    show ofAction _ _ _ (f (some error)).recorded = _
    rw [passes]
    rfl
  | @rereadArgs _ f _ passes _ _ ih =>
    intro s sits
    refine .attempt_bind (fun error => ?_) (rereads s sits) fun args s₁ leads =>
      ih args s₁ (sits.leads leads)
    show ofAction _ _ _ (f (.error error)).recorded = _
    rw [passes]
    rfl
  | rounds _ ih => exact ih rounds rounds (Nat.le_refl rounds)
  | exhausted b =>
    intro s sits result s' e
    cases e

end Evaluation

end Scriptlet
