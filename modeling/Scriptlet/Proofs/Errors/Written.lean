import Scriptlet.Interpreter.Basic
import Scriptlet.Proofs.Syntax.Acceptance

/-!
# What is written in a text

The trees that are read from a text carry tokens of that text only (`Script.parse_over`), and a word
or a statement starts where one of the tokens does that it carries.
-/

namespace Scriptlet

variable {p : Token → Prop}

/-- All tokens that the word carries are such ones, and it carries one at its start. -/
inductive Word.Over (p : Token → Prop) : Word Token → Prop
  | literal {origin : Token} {content : String} : p origin → Over p (.literal origin content)
  | reference {origin : Token} {name : Word Token} :
    p origin → Over p name → Over p (.reference origin name)
  | substitution {origin : Token} {name : Word Token} {args : List (Word Token)} :
    p origin → Over p name → (∀ arg ∈ args, Over p arg) → Over p (.substitution origin name args)
  | vector {origin : Token} {target : Word Token} :
    p origin → Over p target → Over p (.vector origin target)
  | glued {pieces : List (Word Token)} :
    pieces ≠ [] → (∀ piece ∈ pieces, Over p piece) → Over p (.glued pieces)

/-- A word starts at a token that it carries. -/
lemma Word.Over.start {word : Word Token} (written : word.Over p) :
    ∃ token, p token ∧ token.start = word.start := by
  induction written with
  | literal token => exact ⟨_, token, rfl⟩
  | reference token => exact ⟨_, token, rfl⟩
  | substitution token => exact ⟨_, token, rfl⟩
  | vector token => exact ⟨_, token, rfl⟩
  | @glued pieces some _ ih =>
    obtain ⟨first, rest, rfl⟩ := List.exists_cons_of_ne_nil some
    exact ih first List.mem_cons_self

/-- All tokens that the statement carries are such ones. -/
inductive Statement.Over (p : Token → Prop) : Statement Token → Prop
  | command {name : Word Token} {args : List (Word Token)} :
    name.Over p → (∀ arg ∈ args, arg.Over p) → Over p (.command name args)
  | control {origin : Token} {name : Word Token} {args : List (Word Token)}
    {body : Statement Token} : p origin → name.Over p → (∀ arg ∈ args, arg.Over p) →
    Over p body → Over p (.control origin name args body)
  | block {origin : Token} {body : List (Statement Token)} :
    p origin → (∀ s ∈ body, Over p s) → Over p (.block origin body)

/-- A statement starts at a token that it carries. -/
lemma Statement.Over.start {statement : Statement Token} (written : statement.Over p) :
    ∃ token, p token ∧ token.start = statement.start := by
  cases written with
  | command name args => exact name.start
  | control token => exact ⟨_, token, rfl⟩
  | block token => exact ⟨_, token, rfl⟩

namespace Grammar

/-- All tokens in what is read where the symbol is derived are such ones. -/
def Symbol.Over (p : Token → Prop) : (symbol : Symbol) → symbol.Value → Prop
  | name, word | piece, word | adjacentPiece, word | argument, word => word.Over p
  | callTail, call => call.1.Over p ∧ ∀ arg ∈ call.2, arg.Over p
  | parameters, args => ∀ arg ∈ args.getD [], arg.Over p
  | statement, s | separated, s => s.Over p
  | statements, body | script, body => ∀ s ∈ body, s.Over p
  | many symbol, values => ∀ value ∈ values, symbol.Over p value

/-- Pieces that are glued are written where each of them is. -/
lemma glue_over {first : Word Token} {rest : List (Word Token)} (piece : first.Over p)
    (pieces : ∀ word ∈ rest, word.Over p) : (glue first rest).Over p := by
  cases rest with
  | nil => exact piece
  | cons word words =>
    exact .glued (List.cons_ne_nil _ _) (List.forall_mem_cons.2 ⟨piece, pieces⟩)

/-- The tree of a derivation carries none but its tokens. -/
lemma Derivation.written {symbol : Symbol} (d : Derivation symbol) (all : ∀ t ∈ d.tokens, p t) :
    symbol.Over p d.tree := by
  -- along the derivation: every node takes its token from the part that it is made of
  induction d with
  | literal token => exact .literal (all _ (List.mem_singleton_self _))
  | substitution sigil tail ih =>
    obtain ⟨first, rest⟩ := List.forall_mem_cons.1 all
    exact .substitution first (ih rest).1 (ih rest).2
  | reference sigil name ih =>
    obtain ⟨first, rest⟩ := List.forall_mem_cons.1 all
    exact .reference first (ih rest)
  | callTail opener name args closer ihName ihArgs =>
    rw [tokens, List.forall_mem_cons, List.forall_mem_append, List.forall_mem_append] at all
    exact ⟨ihName all.2.1, ihArgs all.2.2.1⟩
  | vectorCall sigil tail ih =>
    obtain ⟨first, rest⟩ := List.forall_mem_cons.1 all
    exact .vector first (.substitution first (ih rest).1 (ih rest).2)
  | vectorReference sigil name ih =>
    obtain ⟨first, rest⟩ := List.forall_mem_cons.1 all
    exact .vector first (.reference first (ih rest))
  | plain name ih => exact ih all
  | adjacent piece ih => exact ih all
  | argument first rest ihFirst ihRest =>
    obtain ⟨front, behind⟩ := List.forall_mem_append.1 all
    exact glue_over (ihFirst front) (ihRest behind)
  | noParameters => exact fun _ mem => absurd mem List.not_mem_nil
  | parameters opener args closer ih =>
    rw [tokens, List.forall_mem_cons, List.forall_mem_append] at all
    exact ih all.2.1
  | block opener body closer ih =>
    rw [tokens, List.forall_mem_cons, List.forall_mem_append] at all
    exact .block all.1 (ih all.2.1)
  | control sigil name params body ihName ihParams ihBody =>
    rw [tokens, List.forall_mem_cons, List.forall_mem_append, List.forall_mem_append] at all
    exact .control all.1 (ihName all.2.1) (ihParams all.2.2.1) (ihBody all.2.2.2)
  | command name args ihName ihArgs =>
    obtain ⟨front, behind⟩ := List.forall_mem_append.1 all
    exact .command (ihName front) (ihArgs behind)
  | separated separators statement ih => exact ih (List.forall_mem_append.1 all).2
  | statements body separators ih => exact ih (List.forall_mem_append.1 all).1
  | script body marker ih => exact ih (List.forall_mem_append.1 all).1
  | nil => exact fun _ mem => absurd mem List.not_mem_nil
  | cons first rest ihFirst ihRest =>
    obtain ⟨front, behind⟩ := List.forall_mem_append.1 all
    exact List.forall_mem_cons.2 ⟨ihFirst front, ihRest behind⟩

/-- What is read is written with the tokens from which it is read. -/
lemma parseTokens_over {limit : Nat} {tokens : List Token} {body : List (Statement Token)}
    (read : parseTokens limit tokens = .ok body) : ∀ s ∈ body, s.Over (· ∈ tokens) := by
  obtain ⟨rest, done⟩ := finish_eq_ok.1 read
  obtain ⟨d, -, rfl, rfl⟩ := script_reads _ done
  exact d.written fun t mem => List.mem_append_left rest mem

end Grammar

namespace Interpreter

variable {σ : Type} {it : Interpreter σ}

/-- The token stands in the text. -/
def Writes (it : Interpreter σ) (text : String) (token : Token) : Prop :=
  ∃ tokens, tokenize it.options text = .ok tokens ∧ token ∈ tokens

/-- A token of the text starts here. -/
def TokenStart (it : Interpreter σ) (text : String) (location : Location) : Prop :=
  ∃ token, it.Writes text token ∧ token.start = location

/-- What is read from a text carries tokens of the text only. -/
lemma parse_over {text : String} {script : Script} (read : it.parse text = .ok script) :
    ∀ s ∈ script.body, s.Over (it.Writes text) := by
  obtain ⟨tokens, split, built⟩ := Script.parse_eq_ok read
  have same : it.Writes text = (· ∈ tokens) := by
    funext token
    simp [Writes, split]
  rw [same]
  exact Grammar.parseTokens_over built

end Interpreter

end Scriptlet
