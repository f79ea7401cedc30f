import Scriptlet.Proofs.Evaluation.Admission
import Scriptlet.Proofs.Numeric.Comparison
import Scriptlet.Proofs.Text.Words

/-!
# Calls of pure expansions

A call of an expansion that only looks at its call either gives a text wherever it is made
(`Interpreter.Answers`) or fails wherever it is made (`Interpreter.Refuses`). As a vector, a call that
gives a text stands for the words of it (`Interpreter.Answers.fills`).
-/

namespace Scriptlet

open Evaluation

variable {σ : Type} {it : Interpreter σ} {name text text' : String} {args : List String} {fault : Fault}

namespace Word

variable {expand : Expand σ} {s s' s₁ s₂ : State σ}

/-- A vector stands for the words of the text that its target evaluates to. -/
lemma slots_vector {target : Word Token} {value : String}
    (evaluated : target.evaluate expand s = some (.ok value, s')) (origin : Token) :
    (Word.vector origin target).slots expand s = some (.ok (Text.words value), s') := by
  have joined : (Word.vector origin target).evaluate expand s =
      some (.ok (Text.unwords (Text.words value)), s') := by
    rw [evaluate, bind_of_ok evaluated]
    rfl
  rw [slots, bind_of_ok joined]
  show some (Except.ok (Text.words (Text.unwords (Text.words value))), s') = _
  rw [Text.words_unwords_words]

/-- A reference by name evaluates to the value of the variable. -/
lemma evaluate_reference {value : String} (known : s.context.get? name = some value)
    (origin place : Token) :
    (Word.reference origin (.literal place name)).evaluate expand s = some (.ok value, s) := by
  have named : (Word.literal place name).evaluate expand s = some (.ok name, s) := by
    rw [evaluate]
    rfl
  have here : (context : Evaluation σ Context) s = some (.ok s.context, s) := rfl
  rw [evaluate, bind_of_ok named, bind_of_ok here, known]
  rfl

/-- Words that are evaluated one after the other. -/
lemma evaluateAll_append {front back : List (Word Token)} {values values' : List String}
    (first : evaluateAll expand front s = some (.ok values, s₁))
    (rest : evaluateAll expand back s₁ = some (.ok values', s₂)) :
    evaluateAll expand (front ++ back) s = some (.ok (values ++ values'), s₂) := by
  induction front generalizing values s with
  | nil =>
    rw [evaluateAll] at first
    cases first
    exact rest
  | cons word front ih =>
    rw [evaluateAll] at first
    obtain ⟨value, s', here, first⟩ := bind_ok first
    obtain ⟨others, s'', later, first⟩ := bind_ok first
    cases first
    rw [List.cons_append, evaluateAll, bind_of_ok here, bind_of_ok (ih later)]
    rfl

end Word

namespace Interpreter

/-- A call of an expansion of this name with these arguments fails with this fault and changes
nothing, whenever it is made. -/
def Refuses (it : Interpreter σ) (name : String) (args : List String) (fault : Fault) : Prop :=
  ∀ run expand rounds (site : CallSite) (s : State σ), site.kind = .expansion →
    it.Admits .expansion name s →
    ∃ host, it.serve run expand rounds site name args s =
      some (.error ⟨fault, some site.location,
        s.context.scopes.backtrace ++ [⟨name, .expansion, args, site.location⟩]⟩,
        { s with host := host })

/-- As a vector, a call of an expansion of this name with these arguments stands for these texts, also
where the first arguments come with the name. -/
def Fills (it : Interpreter σ) (name : String) (args items : List String) : Prop :=
  ∀ fuel vector origin (named : Word Token) given leading more (s s₁ s₂ s₃ : State σ),
    it.step origin.start s = some (.ok (), s₁) →
    named.slots (it.expand fuel) s₁ = some (.ok (name :: leading), s₂) →
    Word.arguments (it.expand fuel) given s₂ = some (.ok more, s₃) → leading ++ more = args →
    it.Admits .expansion name s₃ →
    ∃ host, (Word.vector vector (.substitution origin named given)).slots (it.expand (fuel + 1)) s =
      some (.ok items, { s₃ with host := host })

/-- A call that is answered changes nothing but what the host notes down of it. -/
lemma Answers.serve (answers : it.Answers name args text) (run : Node Token → Evaluation σ Unit)
    (expand : Expand σ) (rounds : Nat) {site : CallSite} (kind : site.kind = .expansion) {s : State σ}
    (admits : it.Admits .expansion name s) :
    ∃ host, it.serve run expand rounds site name args s = some (.ok text, { s with host := host }) :=
  answers run expand rounds site s kind admits.undefined admits.goes_on admits.room

/-- Some call is admitted as soon as there is a host. -/
lemma exists_admits [inhabited : Nonempty σ] (it : Interpreter σ) (named : name ≠ "") :
    ∃ (site : CallSite) (s : State σ), site.kind = .expansion ∧ it.Admits .expansion name s := by
  obtain ⟨host⟩ := inhabited
  let site : CallSite := ⟨.expansion, .literal default name, [], none, .script [], default⟩
  exact ⟨site, ⟨.initial, host⟩, rfl, named, rfl, rfl, Nat.eq_zero_or_pos _⟩

/-- A call gives one text only. -/
lemma Answers.unique [Nonempty σ] (answers : it.Answers name args text)
    (answers' : it.Answers name args text') (named : name ≠ "") : text = text' := by
  obtain ⟨site, s, kind, admits⟩ := exists_admits it named
  obtain ⟨_, served⟩ := answers.serve (fun _ => exhausted) (fun _ _ _ => exhausted) 0 kind admits
  obtain ⟨_, served'⟩ := answers'.serve (fun _ => exhausted) (fun _ _ _ => exhausted) 0 kind admits
  rw [served] at served'
  cases served'
  rfl

/-- A call that gives a text does not fail. -/
lemma Answers.not_refuses [Nonempty σ] (answers : it.Answers name args text) (named : name ≠ "") :
    ¬ it.Refuses name args fault := by
  intro refuses
  obtain ⟨site, s, kind, admits⟩ := exists_admits it named
  obtain ⟨_, served⟩ := answers.serve (fun _ => exhausted) (fun _ _ _ => exhausted) 0 kind admits
  obtain ⟨_, failed⟩ := refuses _ _ _ site s kind admits
  rw [served] at failed
  cases failed

/-- As a vector, a call that gives a text stands for the words of the text. -/
lemma Answers.fills (answers : it.Answers name args text) : it.Fills name args (Text.words text) := by
  intro fuel vector origin named given leading more s s₁ s₂ s₃ stepped name_first arguments same admits
  subst same
  let site : CallSite :=
    ⟨.expansion, named, given, none, .word (.substitution origin named given), origin.start⟩
  have kind : site.kind = .expansion := rfl
  obtain ⟨host, served⟩ := answers.serve (it.runNode fuel) (it.expand fuel) fuel kind admits
  refine ⟨host, Word.slots_vector ?_ vector⟩
  rw [Word.evaluate, expand, bind_of_ok stepped, call, bind_of_ok name_first, bind_of_ok arguments]
  exact served

end Interpreter

namespace Library

variable {callbacks : Callbacks σ} {answer : Call → Except Fault String}

/-- A call of a pure expansion fails if its answer does. -/
lemma refuses_of_pureExpansion
    (served : Chain.handlerFor? (it.registry.chain .expansion) name = some callbacks.toHandler)
    (found : callbacks.find? name = some (pureExpansion answer))
    (refuses : ∀ call : Call, call.args = args → answer call = .error fault) :
    it.Refuses name args fault := by
  intro run expand rounds site s kind admits
  let call : ActiveCall := ⟨name, site.kind, args, site.location⟩
  let pushed := withScopes (·.push (.ofCall call false)) s
  refine ⟨it.observe (.handler call) pushed.context s.host, ?_⟩
  rw [← kind] at served admits ⊢
  apply Interpreter.serve_fails admits
  have invoked : callbacks.toHandler.invoke ⟨call, site.node, site.body⟩ = .fail fault := by
    rw [Callbacks.invoke_of_find? found]
    show (Action.ofExcept (answer _) >>= fun text => pure (some text)) = _
    rw [refuses _ rfl]
    rfl
  rw [Interpreter.dispatch, served]
  show it.handle run expand rounds site call callbacks.toHandler pushed = _
  rw [Interpreter.handle, invoked]
  rfl

end Library

end Scriptlet
