import Mathlib.Data.List.TakeWhile
import Scriptlet.Proofs.Syntax.Openings

/-!
# What is read is derived

Whenever a rule of the grammar is done there is a derivation of its symbol, to the tokens that the
rule has taken, and its tree is the value of the rule.
-/

namespace Scriptlet.Grammar

open Rule

/-- What the rule reads is derived from the symbol. -/
def Reads (symbol : Symbol) (rule : Rule symbol.Value) : Prop :=
  ∀ ⦃tokens value rest⦄, rule tokens = .done value rest →
    ∃ d : Derivation symbol, d.Proper rest ∧ tokens = d.tokens ++ rest ∧ d.tree = value

/-- A symbol that needs a first token takes one. -/
lemma Derivation.taken {symbol : Symbol} (d : Derivation symbol) {next : List Token}
    (proper : d.Proper next) (nonempty : ¬ symbol.Begins []) : d.tokens ≠ [] := by
  intro none
  have begins := d.begins proper
  rw [none] at begins
  exact nonempty begins

/-- A rule that reads such a symbol consumes. -/
lemma Reads.consumes {symbol : Symbol} {rule : Rule symbol.Value} (reads : Reads symbol rule)
    (nonempty : ¬ symbol.Begins []) : Consumes rule := by
  intro tokens value rest done
  obtain ⟨d, proper, rfl, -⟩ := reads done
  have := List.length_pos_iff.2 (d.taken proper nonempty)
  rw [List.length_append]
  omega

section Repetition

variable {symbol : Symbol} {rule : Rule symbol.Value} {tokens rest : List Token}
  {values : List symbol.Value}

/-- The rounds of a repetition read a derivation of the repeated symbol. -/
lemma Reads.repeats (reads : Reads symbol rule) (rounds : Repeats rule tokens values rest) :
    ∃ d : Derivation (.many symbol),
      d.Proper rest ∧ tokens = d.tokens ++ rest ∧ d.tree = values := by
  induction rounds with
  | stop _ => exact ⟨.nil, ⟨trivial, trivial⟩, rfl, rfl⟩
  | more present _ ih =>
    obtain ⟨later, properLater, rfl, rfl⟩ := ih
    obtain ⟨first, proper, rfl, rfl⟩ := reads present
    refine ⟨.cons first later, ⟨⟨trivial, trivial⟩, proper, properLater⟩, ?_, rfl⟩
    exact (List.append_assoc _ _ _).symm

/-- So does the repetition. -/
lemma Reads.many (reads : Reads symbol rule) (nonempty : ¬ symbol.Begins []) :
    Reads (.many symbol) (many rule) :=
  fun _ _ _ done => reads.repeats (many_repeats (reads.consumes nonempty) done)

end Repetition

variable {name argument piece : Rule (Word Token)} {statement : Rule (Statement Token)}

/-- Literals are read as names. -/
lemma literal_reads : Reads .name literal := by
  intro tokens value rest done
  obtain ⟨t, rfl, kind, rfl⟩ := literal_eq_done.1 done
  exact ⟨.literal t, ⟨kind, trivial⟩, rfl, rfl⟩

/-- Tails of calls are read if arguments are. -/
lemma callTail_reads (argued : Reads .argument argument) : Reads .callTail (callTail argument) := by
  intro tokens value rest done
  obtain ⟨opener, _, _, closer, rfl, opens, near, named, listed, closes⟩ := callTail_eq_done.1 done
  obtain ⟨args, properArgs, rfl, tail⟩ := argued.many id listed
  obtain ⟨name, properName, rfl, head⟩ := argued named
  refine ⟨.callTail opener name args closer, ⟨⟨⟨opens, near, closes⟩, trivial⟩, properName,
    properArgs⟩, ?_, Prod.ext head tail⟩
  simp

/-- So are substitutions, as names. -/
lemma substitution_reads (argued : Reads .argument argument) :
    Reads .name (substitution argument) := by
  intro tokens value rest done
  obtain ⟨sigil, _, _, rfl, kind, called, rfl⟩ := substitution_eq_done.1 done
  obtain ⟨tail, proper, rfl, rfl⟩ := callTail_reads argued called
  exact ⟨.substitution sigil tail, ⟨⟨kind, trivial⟩, proper⟩, rfl, rfl⟩

/-- Whether tokens are adjacent is told by the first of them, if there is one. -/
lemma adjacent_of_append {tokens next : List Token} (taken : tokens ≠ [])
    (h : Adjacent (tokens ++ next)) : Adjacent tokens := by
  cases tokens with
  | nil => exact absurd rfl taken
  | cons t tokens => exact h

/-- References are read as names if names are. -/
lemma reference_reads (named : Reads .name name) : Reads .name (reference name) := by
  intro tokens value rest done
  obtain ⟨sigil, _, _, rfl, kind, near, read, rfl⟩ := reference_eq_done.1 done
  obtain ⟨name, proper, rfl, rfl⟩ := named read
  have near := adjacent_of_append (name.taken proper id) near
  exact ⟨.reference sigil name, ⟨⟨⟨kind, near⟩, trivial⟩, proper⟩, rfl, rfl⟩

/-- Names are read if the names and the arguments inside are. -/
lemma name_reads (named : Reads .name name) (argued : Reads .argument argument) :
    Reads .name (Grammar.name name argument) := by
  intro tokens value rest done
  obtain done | ⟨-, done | ⟨-, done⟩⟩ := name_eq_done.1 done
  · exact literal_reads done
  · exact substitution_reads argued done
  · exact reference_reads named done

/-- So are vector expansions, as pieces. -/
lemma vector_reads (named : Reads .name name) (argued : Reads .argument argument) :
    Reads .piece (vector name argument) := by
  intro tokens value rest done
  obtain ⟨sigil, _, _, rfl, kind, rfl, ⟨_, called, rfl⟩ | ⟨-, near, _, read, rfl⟩⟩ :=
    vector_eq_done.1 done
  · obtain ⟨tail, proper, rfl, rfl⟩ := callTail_reads argued called
    exact ⟨.vectorCall sigil tail, ⟨⟨kind, trivial⟩, proper⟩, rfl, rfl⟩
  · obtain ⟨name, proper, rfl, rfl⟩ := named read
    have near := adjacent_of_append (name.taken proper id) near
    exact ⟨.vectorReference sigil name, ⟨⟨⟨kind, near⟩, trivial⟩, proper⟩, rfl, rfl⟩

/-- Adjacent pieces are read if pieces are. -/
lemma adjacent_reads (pieced : Reads .piece piece) : Reads .adjacentPiece (adjacent piece) := by
  intro tokens value rest done
  obtain ⟨near, read⟩ := adjacent_eq_done.1 done
  obtain ⟨piece, proper, rfl, rfl⟩ := pieced read
  have near := adjacent_of_append (piece.taken proper id) near
  exact ⟨.adjacent piece, ⟨⟨near, trivial⟩, proper⟩, rfl, rfl⟩

/-- That the argument is whole is due to the repetition, which has ended where no piece is. -/
lemma argument_reads (pieced : Reads .piece piece)
    (absent : ∀ {tokens}, piece tokens = .absent → ¬ StartsWith pieceKinds tokens) :
    Reads .argument (Grammar.argument piece) := by
  intro tokens value rest done
  obtain ⟨_, _, _, read, glued, rfl⟩ := argument_eq_done.1 done
  have nonempty : ¬ Symbol.adjacentPiece.Begins [] := And.left
  have rounds := many_repeats ((adjacent_reads pieced).consumes nonempty) glued
  obtain ⟨later, properLater, rfl, rfl⟩ := (adjacent_reads pieced).repeats rounds
  obtain ⟨first, proper, rfl, rfl⟩ := pieced read
  refine ⟨.argument first later, ⟨⟨trivial, ?_⟩, proper, properLater⟩, ?_, rfl⟩
  · rintro ⟨near, starts⟩
    -- an adjacent piece would have been one more round
    obtain rfl | gone := rounds.ends
    · exact near
    · exact absent (absent_of_adjacent near gone) starts
  · exact (List.append_assoc _ _ _).symm

/-- Optional arguments in parentheses are read if arguments are. -/
lemma parenthesized_reads (argued : Reads .argument argument) :
    Reads .parameters (optional (parenthesized argument)) := by
  intro tokens value rest done
  obtain ⟨_, rfl, read⟩ | ⟨rfl, rfl, -⟩ := optional_eq_done.1 done
  · obtain ⟨opener, _, closer, rfl, opens, listed, closes⟩ := parenthesized_eq_done.1 read
    obtain ⟨args, proper, rfl, rfl⟩ := argued.many id listed
    refine ⟨.parameters opener args closer, ⟨⟨⟨opens, closes⟩, trivial⟩, proper⟩, ?_, rfl⟩
    simp
  · exact ⟨.noParameters, ⟨trivial, trivial⟩, rfl, rfl⟩

/-- The tokens are the separators that are dropped and what is left. -/
lemma separators_taken (tokens : List Token) :
    ∃ taken : List Token, (∀ t ∈ taken, t.kind = .separator) ∧
      tokens = taken ++ tokens.dropWhile fun t => t.kind = .separator := by
  refine ⟨tokens.takeWhile fun t => t.kind = .separator, ?_, List.takeWhile_append_dropWhile.symm⟩
  intro t taken
  simpa using List.mem_takeWhile_imp taken

/-- Statements behind separators are read if statements are. -/
lemma separated_reads (stated : Reads .statement statement) :
    Reads .separated (separated statement) := by
  intro tokens value rest done
  obtain ⟨taken, kinds, split⟩ := separators_taken tokens
  obtain ⟨statement, proper, left, rfl⟩ := stated (separated_eq_done.1 done)
  refine ⟨.separated taken statement, ⟨⟨kinds, trivial⟩, proper⟩, ?_, rfl⟩
  rw [left] at split
  rw [split]
  exact (List.append_assoc _ _ _).symm

/-- So are several. -/
lemma statements_reads (stated : Reads .statement statement) :
    Reads .statements (statements statement) := by
  intro tokens value rest done
  obtain ⟨middle, listed, rfl⟩ := statements_eq_done.1 done
  obtain ⟨taken, kinds, split⟩ := separators_taken middle
  obtain ⟨body, proper, rfl, rfl⟩ := (separated_reads stated).many id listed
  refine ⟨.statements body taken, ⟨⟨kinds, trivial⟩, split ▸ proper⟩, ?_, rfl⟩
  show _ = body.tokens ++ taken ++ _
  rw [List.append_assoc, ← split]

/-- So are blocks. -/
lemma block_reads (stated : Reads .statement statement) : Reads .statement (block statement) := by
  intro tokens value rest done
  obtain ⟨opener, _, _, closer, rfl, opens, listed, closes, rfl⟩ := block_eq_done.1 done
  obtain ⟨body, proper, rfl, rfl⟩ := statements_reads stated listed
  refine ⟨.block opener body closer, ⟨⟨⟨opens, closes⟩, trivial⟩, proper⟩, ?_, rfl⟩
  simp

/-- Control calls are read if arguments and statements are. -/
lemma control_reads (argued : Reads .argument argument) (stated : Reads .statement statement) :
    Reads .statement (control argument statement) := by
  intro tokens value rest done
  obtain ⟨sigil, _, _, _, _, _, _, rfl, kind, near, named, listed, controlled, rfl⟩ :=
    control_eq_done.1 done
  obtain ⟨body, properBody, rfl, rfl⟩ := stated controlled
  obtain ⟨params, properParams, rfl, rfl⟩ := parenthesized_reads argued listed
  obtain ⟨name, proper, rfl, rfl⟩ := argued named
  have near := adjacent_of_append (name.taken proper id) near
  refine ⟨.control sigil name params body, ⟨⟨⟨kind, near⟩, trivial⟩, proper, properParams,
    properBody⟩, ?_, rfl⟩
  simp

/-- Commands are read if arguments are. -/
lemma command_reads (argued : Reads .argument argument) : Reads .statement (command argument) := by
  intro tokens value rest done
  obtain ⟨_, _, _, named, listed, ends, rfl⟩ := command_eq_done.1 done
  obtain ⟨args, properArgs, rfl, rfl⟩ := argued.many id listed
  obtain ⟨name, proper, rfl, rfl⟩ := argued named
  refine ⟨.command name args, ⟨⟨ends, trivial⟩, proper, properArgs⟩, ?_, rfl⟩
  exact (List.append_assoc _ _ _).symm

variable {limit : Nat}

/-- Names and pieces are read, whatever the room: the induction is on it. -/
lemma words_read (room : Nat) :
    Reads .name (nameAt limit room) ∧ Reads .piece (pieceAt limit room) := by
  induction room with
  | zero => exact ⟨nofun, nofun⟩
  | succ room ih =>
    obtain ⟨named, pieced⟩ := ih
    have argued := argument_reads pieced pieceAt_absent
    refine ⟨name_reads named argued, ?_⟩
    intro tokens value rest done
    obtain done | ⟨-, done⟩ := or_eq_done.1 done
    · exact vector_reads named argued done
    · obtain ⟨name, proper, rfl, rfl⟩ := name_reads named argued done
      exact ⟨.plain name, ⟨⟨trivial, trivial⟩, proper⟩, rfl, rfl⟩

/-- Arguments are read, whatever the room. -/
lemma argumentAt_reads (room : Nat) : Reads .argument (argumentAt limit room) :=
  argument_reads (words_read room).2 pieceAt_absent

/-- Statements are read, whatever the room. -/
lemma statementAt_reads (room : Nat) : Reads .statement (statementAt limit room) := by
  induction room with
  | zero => exact nofun
  | succ room ih =>
    intro tokens value rest done
    obtain done | ⟨-, done⟩ := or_eq_done.1 done
    · exact block_reads ih done
    · obtain done | ⟨-, done⟩ := or_eq_done.1 done
      · exact control_reads (argumentAt_reads room) ih done
      · exact command_reads (argumentAt_reads room) done

/-- Scripts are read, whatever the room. -/
theorem script_reads (room : Nat) : Reads .script (script limit room) := by
  intro tokens value rest done
  obtain ⟨marker, listed, ends⟩ := script_eq_done.1 done
  obtain ⟨body, proper, rfl, rfl⟩ := statements_reads (statementAt_reads room) listed
  refine ⟨.script body marker, ⟨⟨ends, trivial⟩, proper⟩, ?_, rfl⟩
  simp

end Scriptlet.Grammar
