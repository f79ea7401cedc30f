import Scriptlet.Proofs.Syntax.Commands
import Scriptlet.Proofs.Syntax.Impasse

/-!
# Where a script can end

No part of a derivation closes a bracket that was open in front of it, and inside a statement a
separator stands only in brackets. So where no bracket is open, a script can end wherever a
statement could start in it (`Derivation.ends_early`).
-/

namespace Scriptlet.Grammar

variable {before more next next' : List Token}

/-- Tokens close some of the brackets that are open in front of them, and leave others open. -/
lemma nestAll_shape (tokens : List Token) :
    ∃ opened closed, ∀ brackets, nestAll brackets tokens = opened ++ brackets.drop closed := by
  induction tokens with
  | nil => exact ⟨[], 0, fun brackets => rfl⟩
  | cons t tokens ih =>
    obtain ⟨opened, closed, shape⟩ := ih
    have opens (bracket : Bracket) (nest : t.kind.nest = (bracket :: ·)) :
        ∃ opened closed, ∀ brackets,
          nestAll brackets (t :: tokens) = opened ++ brackets.drop closed := by
      cases closed with
      | zero => exact ⟨opened ++ [bracket], 0, fun brackets => by simp [nest, shape]⟩
      | succ closed => exact ⟨opened, closed, fun brackets => by simp [nest, shape]⟩
    have closes (nest : t.kind.nest = List.tail) :
        ∃ opened closed, ∀ brackets,
          nestAll brackets (t :: tokens) = opened ++ brackets.drop closed :=
      ⟨opened, closed + 1, fun brackets => by simp [nest, shape, List.drop_tail]⟩
    cases kind : t.kind with
    | openParen => exact opens .paren (by rw [kind]; rfl)
    | openBrace => exact opens .brace (by rw [kind]; rfl)
    | closeParen => exact closes (by rw [kind]; rfl)
    | closeBrace => exact closes (by rw [kind]; rfl)
    | _ => exact ⟨opened, closed, fun brackets => by simp [kind, TokenKind.nest, shape]⟩

namespace Derivation

variable {symbol : Symbol}

/-- No beginning of a derivation closes a bracket that was open in front of it. -/
lemma nests_within (d : Derivation symbol) (proper : d.Proper next)
    (split : d.tokens = before ++ more) :
    ∃ opened, ∀ brackets, nestAll brackets before = opened ++ brackets := by
  obtain ⟨opened, closed, shape⟩ := nestAll_shape before
  obtain ⟨opened', closed', shape'⟩ := nestAll_shape more
  cases closed with
  | zero => exact ⟨opened, shape⟩
  | succ closed =>
    -- what is left of one bracket would not tell which one it was
    have balanced (bracket : Bracket) :
        opened' ++ (opened ++ [bracket].drop (closed + 1)).drop closed' = [bracket] := by
      rw [← shape, ← shape', ← nestAll_append, ← split]
      exact d.nests proper [bracket]
    have same := (balanced .paren).symm.trans (balanced .brace)
    cases same

/-- Inside a statement, a separator stands in brackets. -/
lemma separator_enclosed (d : Derivation .statement) {before more next : List Token}
    {separator : Token} (proper : d.Proper next) (kind : separator.kind = .separator)
    (split : d.tokens = before ++ separator :: more) : nestAll [] before ≠ [] := by
  have wordless : TokenKind.separator ∉ wordKinds := by decide
  match d with
  | command name args =>
    have words : ∀ t ∈ (command name args).tokens, t.kind ∈ wordKinds :=
      List.forall_mem_append.2
        ⟨name.word_kinds id proper.2.1, args.word_kinds id proper.2.2⟩
    rw [split] at words
    exact absurd (kind ▸ words separator (by simp)) wordless
  | block opener body closer =>
    obtain ⟨⟨⟨opens, closes⟩, -⟩, properBody⟩ := proper
    have whole : [opener] ++ (body.tokens ++ [closer]) = before ++ separator :: more := split
    obtain ⟨inner, rfl, rest⟩ :=
      split_behind (List.forall_mem_singleton.2 opens) (by simp [kind]) whole
    obtain ⟨_, rest⟩ := split_before (List.forall_mem_singleton.2 closes) (by simp [kind]) rest
    obtain ⟨opened, shape⟩ := body.nests_within properBody rest
    rw [List.singleton_append, nestAll_cons, opens, shape]
    simp [TokenKind.nest]
  | control sigil name params body =>
    obtain ⟨⟨⟨bang, -⟩, -⟩, properName, properParams, properBody⟩ := proper
    have whole : (sigil :: (name.tokens ++ params.tokens)) ++ body.tokens =
        before ++ separator :: more := by simpa using split
    obtain ⟨_, inside, -⟩ | ⟨inner, rfl, rest⟩ := split_cases whole
    · have words : ∀ t ∈ sigil :: (name.tokens ++ params.tokens), t.kind ∈ .bang :: wordKinds := by
        rw [List.forall_mem_cons, List.forall_mem_append, bang]
        exact ⟨List.mem_cons_self,
          fun t mem => List.mem_cons_of_mem _ (name.word_kinds id properName t mem),
          fun t mem => List.mem_cons_of_mem _ (params.word_kinds id properParams t mem)⟩
      rw [inside] at words
      exact absurd (kind ▸ words separator (by simp)) (by decide)
    · have flat : nestAll [] (sigil :: (name.tokens ++ params.tokens)) = [] := by
        rw [nestAll_cons, bang, nestAll_append, name.nests properName, params.nests properParams]
        rfl
      rw [nestAll_append, flat]
      exact separator_enclosed body properBody kind rest

/-- Outside of brackets, no beginning of a statement ends with a separator. -/
lemma begins_empty (d : Derivation .statement) (proper : d.Proper next)
    (split : d.tokens = before ++ more) (closed : nestAll [] before = [])
    (separated : ∀ t ∈ before.getLast?, t.kind = .separator) : before = [] := by
  cases before using List.reverseRecOn with
  | nil => rfl
  | append_singleton front separator =>
    have kind : separator.kind = .separator := separated separator (by simp)
    rw [nestAll_append, nest_separators (List.forall_mem_singleton.2 kind)] at closed
    rw [List.append_assoc] at split
    exact absurd closed (d.separator_enclosed proper kind split)

/-- Statements can end where one could start, outside of all brackets. -/
lemma statements_end (body : Derivation (.many .separated)) (trailing : List Token)
    {before more : List Token} (proper : (statements body trailing).Proper next)
    (split : body.tokens ++ trailing = before ++ more) (closed : nestAll [] before = [])
    (separated : ∀ t ∈ before.getLast?, t.kind = .separator) :
    ∃ (body' : Derivation (.many .separated)) (trailing' : List Token),
      body'.tokens ++ trailing' = before ∧ (statements body' trailing').Proper next' := by
  have nothing (kinds : ∀ t ∈ before, t.kind = .separator) :
      ∃ (body' : Derivation (.many .separated)) (trailing' : List Token),
        body'.tokens ++ trailing' = before ∧ (statements body' trailing').Proper next' :=
    ⟨nil, before, rfl, ⟨kinds, trivial⟩, trivial, trivial⟩
  match body with
  | nil =>
    have whole : trailing = before ++ more := split
    exact nothing fun t inside => proper.1.1 t (by simp [whole, inside])
  | cons (Derivation.separated separators statement) rest =>
    obtain ⟨⟨trailed, -⟩, -, ⟨⟨separates, -⟩, properStatement⟩, properRest⟩ := proper
    have separates : ∀ t ∈ separators, t.kind = .separator := separates
    have whole : separators ++ (statement.tokens ++ (rest.tokens ++ trailing)) =
        before ++ more := by simpa using split
    obtain ⟨inner, rfl, behind⟩ | ⟨_, rfl, -⟩ := List.append_eq_append_iff.1 whole
    case inr => exact nothing fun t inside => separates t (List.mem_append_left _ inside)
    rw [nestAll_append, nest_separators separates] at closed
    -- the beginning ends with the separators, or behind the statement
    have stops {left : List Token} (within : statement.tokens = inner ++ left) : inner = [] := by
      refine statement.begins_empty properStatement within closed fun t last => ?_
      exact separated t (by simp [List.getLast?_append, Option.mem_def.1 last])
    obtain ⟨later, rfl, left⟩ | ⟨_, within, -⟩ := List.append_eq_append_iff.1 behind
    case inr =>
      obtain rfl := stops within
      exact nothing (by simpa using separates)
    by_cases filled : later = []
    case pos =>
      subst filled
      have empty := stops (show statement.tokens = statement.tokens ++ [] ++ [] by simp)
      exact nothing (by simpa [empty] using separates)
    case neg =>
      rw [nestAll_append, statement.nests properStatement] at closed
      obtain ⟨body', trailing', rfl, ⟨lawful, properBody'⟩⟩ :=
        statements_end rest trailing ⟨⟨trailed, trivial⟩, properRest⟩ left closed fun t last =>
          separated t (by simp [List.getLast?_append, Option.mem_def.1 last])
      refine ⟨cons (Derivation.separated separators statement) body', trailing', by simp, lawful,
        ⟨trivial, trivial⟩, ⟨⟨separates, trivial⟩, ?_⟩, properBody'⟩
      refine Proper.of_head properStatement ?_
      rw [← List.append_assoc, ← List.append_assoc, left, List.append_assoc _ more]
      exact head_of_taken filled _ _

/-- A script can end where a statement could start in it, outside of all brackets. -/
lemma ends_early (d : Derivation .script) (proper : d.Proper next)
    (split : d.tokens = before ++ more) (closed : nestAll [] before = [])
    (separated : ∀ t ∈ before.getLast?, t.kind = .separator) {marker : Token}
    (kind : marker.kind = .endMarker) :
    ∃ d' : Derivation .script, d'.tokens = before ++ [marker] ∧ d'.Proper [] := by
  match d with
  | script (statements body trailing) last =>
    have inner : ∃ more, body.tokens ++ trailing = before ++ more := by
      cases more using List.reverseRecOn with
      | nil =>
        have whole : before = (body.tokens ++ trailing) ++ [last] := by simpa using split.symm
        have ended : last.kind = .separator := separated last (by simp [whole])
        cases ended.symm.trans proper.1.1
      | append_singleton more _ =>
        rw [← List.append_assoc] at split
        exact ⟨more, (List.append_inj' split rfl).1⟩
    obtain ⟨more, inner⟩ := inner
    obtain ⟨body', trailing', rfl, proper'⟩ :
        ∃ (body' : Derivation (.many .separated)) (trailing' : List Token),
          body'.tokens ++ trailing' = before ∧ (statements body' trailing').Proper [marker] :=
      statements_end body trailing proper.2 inner closed separated
    exact ⟨script (statements body' trailing') marker, rfl, ⟨kind, trivial⟩, proper'⟩

end Derivation

end Scriptlet.Grammar
