import Scriptlet.Proofs.Library.Expansions
import Scriptlet.Proofs.Scope.Redirects

/-!
# Vectors

A vector is kept as a text and taken apart wherever it is used. All uses see the same items, the words
of the text: as arguments, as a part of a word, as the name of a call, and one at a time by `vempty?`,
`vhead` and `vtail` (`vector_items_agree`).
-/

namespace Scriptlet

open Evaluation

namespace Library

variable {σ : Type} {it : Interpreter σ} {args : List String}

/-- The calls that take vectors apart are served by those of the base library. -/
def ServesVectors (it : Interpreter σ) : Prop :=
  ∀ name ∈ ["vempty?", "vhead", "vtail"],
    Chain.handlerFor? (it.registry.chain .expansion) name = some vectors.toHandler

/-- The texts that come up when a vector is taken apart from its start, as long as it is not empty. -/
inductive Peels (it : Interpreter σ) : (vector : String) → (visited : List String) → Prop
  | done {v : String} (empty : it.Answers "vempty?" [v] (Reading.ofBool true)) : Peels it v []
  | item {v first behind : String} {rest : List String}
      (more : it.Answers "vempty?" [v] (Reading.ofBool false))
      (head : it.Answers "vhead" [v] first) (tail : it.Answers "vtail" [v] behind)
      (peels : Peels it behind rest) : Peels it v (first :: rest)

/-- Any arguments are at least one. -/
lemma requireMinArgs_one {call : Call} (some : call.args ≠ []) : call.requireMinArgs 1 = .ok () :=
  if_pos (List.length_pos_iff.2 some)

/-- Whether a vector is empty is asked of all arguments together. -/
lemma answers_vempty (vectors : ServesVectors it) (some : args ≠ []) :
    it.Answers "vempty?" args (Reading.ofBool (Text.words (Text.unwords args)).isEmpty) := by
  apply answers_of_pureExpansion (by decide) (vectors _ (by simp)) rfl
  intro call same
  subst same
  have blank : call.args.all Text.isAllBlank = (Text.words (Text.unwords call.args)).isEmpty := by
    rw [Bool.eq_iff_iff, List.isEmpty_iff, Text.words_unwords_eq_nil_iff]
  rw [isEmptyVector, requireMinArgs_one some, blank]
  rfl

/-- The head of a vector is the first word of all arguments together. -/
lemma answers_vhead (vectors : ServesVectors it) {first : String} {others : List String}
    (items : Text.words (Text.unwords args) = first :: others) : it.Answers "vhead" args first := by
  have some : args ≠ [] := by
    rintro rfl
    cases items
  apply answers_of_pureExpansion (by decide) (vectors _ (by simp)) rfl
  intro call same
  subst same
  rw [head, requireMinArgs_one some, items]
  rfl

/-- Without words there is no head. -/
lemma refuses_vhead (vectors : ServesVectors it) (some : args ≠ [])
    (empty : Text.words (Text.unwords args) = []) : it.Refuses "vhead" args .emptyVector := by
  apply refuses_of_pureExpansion (vectors _ (by simp)) rfl
  intro call same
  subst same
  rw [head, requireMinArgs_one some, empty]
  rfl

/-- The tail of a vector is what all arguments together have behind the first word. -/
lemma answers_vtail (vectors : ServesVectors it) (some : args ≠ []) :
    it.Answers "vtail" args (Text.dropWord (Text.unwords args)) := by
  apply answers_of_pureExpansion (by decide) (vectors _ (by simp)) rfl
  intro call same
  subst same
  rw [tail, requireMinArgs_one some]
  rfl

/-- Taking a text apart from its start comes by its words. -/
lemma peels_words (vectors : ServesVectors it) {v : String} {items : List String}
    (words : Text.words v = items) : Peels it v items := by
  induction items generalizing v with
  | nil =>
    have empty := answers_vempty vectors (List.cons_ne_nil v [])
    rw [Text.unwords_singleton, words] at empty
    exact .done empty
  | cons first rest ih =>
    have more := answers_vempty vectors (List.cons_ne_nil v [])
    have tail := answers_vtail vectors (List.cons_ne_nil v [])
    rw [Text.unwords_singleton] at more tail
    rw [words] at more
    have head : it.Answers "vhead" [v] first := by
      apply answers_vhead vectors
      rw [Text.unwords_singleton, words]
    have behind : Text.words (Text.dropWord v) = rest := by
      rw [Text.words_dropWord, words, List.tail_cons]
    exact .item more head tail (ih behind)

/-- Nothing else comes up when a vector is taken apart. -/
lemma Peels.unique [Nonempty σ] {v : String} {visited visited' : List String}
    (peels : Peels it v visited) (peels' : Peels it v visited') : visited = visited' := by
  -- each step is a call, and a call gives one text only
  induction peels generalizing visited' with
  | done empty =>
    cases peels' with
    | done _ => rfl
    | item more _ _ _ => exact absurd (empty.unique more (by decide)) (by decide)
  | item more head tail _ ih =>
    cases peels' with
    | done empty => exact absurd (empty.unique more (by decide)) (by decide)
    | item _ head' tail' peels' =>
      obtain rfl := head.unique head' (by decide)
      obtain rfl := tail.unique tail' (by decide)
      rw [ih peels']

section

variable {run : Node Token → Evaluation σ Unit} {expand : Expand σ} {rounds : Nat} {site : CallSite}
  {x v : String} {s s' s₁ s₂ : State σ}

/-- A variable that is set has the other arguments for its value, put together with spaces. -/
lemma serve_set (x : String) (args : List String)
    (sets : Chain.handlerFor? (it.registry.chain .command) "set" = some commands.toHandler)
    (kind : site.kind = .command) (admits : it.Admits .command "set" s)
    (sound : s.context.scopes.WellRedirected) :
    ∃ host, it.serve run expand rounds site "set" (x :: args) s =
      some (.ok "", ⟨s.context.update (.set x (Text.unwords args)), host⟩) := by
  let call : ActiveCall := ⟨"set", site.kind, x :: args, site.location⟩
  let pushed := withScopes (·.push (.ofCall call false)) s
  let host := it.observe (.handler call) pushed.context s.host
  refine ⟨host, ?_⟩
  rw [← kind] at sets admits
  have handled : it.handle run expand rounds site call commands.toHandler pushed =
      some (.ok none, ⟨pushed.context.update (.set x (Text.unwords args)), host⟩) := rfl
  rw [Interpreter.serve_handled admits sets, bind_of_ok (inFrame_of_ok handled)]
  let inner := (s.context.scopes.push (.ofCall call false)).set x (Text.unwords args)
  have left : inner.pop = s.context.scopes.set x (Text.unwords args) :=
    congrArg ScopeStack.pop (ScopeStack.set_push (sound.isSome_scopeAt_resolve x) _ call)
  show some (Except.ok "", (⟨s.context.withScopes fun _ => inner.pop, host⟩ : State σ)) = _
  rw [left]
  rfl

/-- As an argument, a vector stands for the words of the value. -/
lemma slots_variable (known : s.context.get? x = some v) (origin place place' : Token) :
    (Word.vector origin (.reference place (.literal place' x))).slots expand s =
      some (.ok (Text.words v), s) :=
  Word.slots_vector (Word.evaluate_reference known place place') origin

/-- As a part of a word, a vector stands for the words of the value with one space between each
two. -/
lemma evaluate_glued_variable {front back : List (Word Token)} {before behind : List String}
    (first : Word.evaluateAll expand front s = some (.ok before, s₁))
    (known : s₁.context.get? x = some v)
    (rest : Word.evaluateAll expand back s₁ = some (.ok behind, s₂)) (origin place place' : Token) :
    (Word.glued (front ++ .vector origin (.reference place (.literal place' x)) :: back)).evaluate
        expand s =
      some (.ok (String.join before ++ Text.unwords (Text.words v) ++ String.join behind), s₂) := by
  have joined : (Word.vector origin (.reference place (.literal place' x))).evaluate expand s₁ =
      some (.ok (Text.unwords (Text.words v)), s₁) := by
    rw [Word.evaluate, bind_of_ok (Word.evaluate_reference known place place')]
    rfl
  have middle : Word.evaluateAll expand
      (.vector origin (.reference place (.literal place' x)) :: back) s₁ =
        some (.ok (Text.unwords (Text.words v) :: behind), s₂) := by
    rw [Word.evaluateAll, bind_of_ok joined, bind_of_ok rest]
    rfl
  rw [Word.evaluate, bind_of_ok (Word.evaluateAll_append first middle), String.append_assoc,
    ← String.join_cons, ← String.join_append]
  rfl

/-- As the name of a call, a vector gives the name and the first arguments. -/
lemma call_variable {first : String} {others more : List String}
    (items : Text.words v = first :: others) {origin place place' : Token}
    (named : site.name = .vector origin (.reference place (.literal place' x)))
    (known : s.context.get? x = some v)
    (arguments : Word.arguments expand site.args s = some (.ok more, s')) :
    it.call run expand rounds site s =
      it.serve run expand rounds site first (others ++ more) s' := by
  have slots : site.name.slots expand s = some (.ok (first :: others), s) := by
    rw [named, ← items]
    exact slots_variable known origin place place'
  rw [Interpreter.call, bind_of_ok slots, bind_of_ok arguments]
  rfl

end

/-- After a variable was set to arguments, all operations see the same items in it, which are those of
the arguments one after the other: the arguments that it stands for as a vector, those between the
spaces of a word that it is a part of, and the call and its first arguments where it is the name.
`vempty?` answers that there are none if and only if there are none, and then `vhead` fails;
otherwise the items are what `vhead` gives and then the items of what `vtail` gives. So taking the
text apart from its start comes by these items, in order and none other, and ends. -/
theorem vector_items_agree [Nonempty σ] (vectors : ServesVectors it)
    (sets : Chain.handlerFor? (it.registry.chain .command) "set" = some commands.toHandler)
    (some_args : args ≠ []) (x : String) :
    let v := Text.unwords args
    let items := Text.words v
    items = args.flatMap Text.words ∧ Text.words (Text.unwords items) = items ∧
    (∀ run expand rounds (site : CallSite) (s : State σ), site.kind = .command →
      it.Admits .command "set" s → s.context.scopes.WellRedirected →
      ∃ s', it.serve run expand rounds site "set" (x :: args) s = some (.ok "", s') ∧
        s'.context.get? x = some v) ∧
    (∀ (expand : Expand σ) origin place place',
      let vector := Word.vector origin (.reference place (.literal place' x))
      (∀ s, s.context.get? x = some v → vector.slots expand s = some (.ok items, s)) ∧
      (∀ front before back behind s s₁ s₂,
        Word.evaluateAll expand front s = some (.ok before, s₁) → s₁.context.get? x = some v →
        Word.evaluateAll expand back s₁ = some (.ok behind, s₂) →
        (Word.glued (front ++ vector :: back)).evaluate expand s =
          some (.ok (String.join before ++ Text.unwords items ++ String.join behind), s₂)) ∧
      ∀ first others, items = first :: others → ∀ run rounds site s more s', site.name = vector →
        s.context.get? x = some v →
        Word.arguments expand site.args s = some (.ok more, s') →
        it.call run expand rounds site s =
          it.serve run expand rounds site first (others ++ more) s') ∧
    it.Answers "vempty?" args (Reading.ofBool items.isEmpty) ∧
    (it.Refuses "vhead" args .emptyVector ↔ items = []) ∧
    (∀ first others, items = first :: others →
      it.Answers "vhead" args first ∧ ∃ tail, it.Answers "vtail" args tail ∧ Text.words tail = others) ∧
    ∀ visited, Peels it v visited ↔ visited = items := by
  intro v items
  refine ⟨Text.words_unwords args, Text.words_unwords_words v, ?_, ?_, answers_vempty vectors some_args,
    ?_, ?_, ?_⟩
  · intro run expand rounds site s kind admits sound
    obtain ⟨host, served⟩ := serve_set x args sets kind admits sound
    exact ⟨_, served, ScopeStack.get?_set (sound.isSome_scopeAt_resolve x) v⟩
  · intro expand origin place place' vector
    refine ⟨fun s known => slots_variable known origin place place', ?_, ?_⟩
    · intro front before back behind s s₁ s₂ first known rest
      exact evaluate_glued_variable first known rest origin place place'
    · intro first others same run rounds site s more s' named known arguments
      exact call_variable same named known arguments
  · constructor
    · intro refuses
      by_contra filled
      obtain ⟨first, others, same⟩ := List.exists_cons_of_ne_nil filled
      exact (answers_vhead vectors same).not_refuses (by decide) refuses
    · exact refuses_vhead vectors some_args
  · intro first others same
    refine ⟨answers_vhead vectors same, _, answers_vtail vectors some_args, ?_⟩
    rw [Text.words_dropWord]
    exact congrArg List.tail same
  · intro visited
    constructor
    · intro peels
      exact peels.unique (peels_words vectors rfl)
    · rintro rfl
      exact peels_words vectors rfl

/-- The command line program serves the expansions of vectors. -/
lemma console_servesVectors : ServesVectors Console.interpreter := by
  intro name mem
  simp only [List.mem_cons, List.not_mem_nil, or_false] at mem
  rcases mem with rfl | rfl | rfl <;> rfl

/-- Three arguments, one of them blank, make a vector of three items. -/
theorem items_of_three_arguments : ServesVectors Console.interpreter ∧
    Chain.handlerFor? (Console.interpreter.registry.chain .command) "set" =
      some Library.commands.toHandler ∧
    ["a  b", " ", "c"] ≠ [] ∧ Peels Console.interpreter "a  b   c" ["a", "b", "c"] := by
  have : Nonempty Console.Host := ⟨Console.start [] 0⟩
  obtain ⟨-, -, -, -, -, -, -, peels⟩ :=
    vector_items_agree console_servesVectors rfl (List.cons_ne_nil "a  b" [" ", "c"]) "x"
  exact ⟨console_servesVectors, rfl, List.cons_ne_nil _ _, (peels _).2 (by decide +kernel)⟩

end Library

end Scriptlet
