import Scriptlet.Proofs.Lexer.Tiling
import Scriptlet.Proofs.Syntax.Acceptance
import Scriptlet.Proofs.Syntax.Height

/-!
# What the limit of nesting does

With a limit, a text is read as it is without one if the room of its tree is within the limit, and it
is not read otherwise (`Script.parse_limit`). So nothing that is read lies deeper than the limit, and
a larger limit changes nothing. But the limit has to leave room for two levels more where a block or
the script ends, since another statement is looked for there.
-/

namespace Scriptlet

namespace Grammar

open Rule

/-- The rule is only done with what takes at most so much room. -/
def Within {β : Type} (most : Nat) (size : β → Nat) (rule : Rule β) : Prop :=
  ∀ ⦃tokens value rest⦄, rule tokens = .done value rest → size value ≤ most

variable {limit most room : Nat} {tokens : List Token} {name argument piece : Rule (Word Token)}
  {statement : Rule (Statement Token)}

/-- A literal takes one level. -/
lemma literal_within : Within (most + 1) Word.room literal := by
  intro tokens word rest done
  obtain ⟨t, -, -, rfl⟩ := literal_eq_done.1 done
  exact Nat.succ_le_succ (Nat.zero_le _)

/-- A repetition takes what its largest round does. -/
lemma many_within (within : Within most Word.room argument) :
    Within most Word.roomAll (many argument) :=
  fun _ _ _ done => Word.roomAll_le (many_all (fun read => within read) done)

/-- The tail of a call takes what its name and its arguments do. -/
lemma callTail_within (within : Within most Word.room argument) :
    Within most (fun call => max call.1.room (Word.roomAll call.2)) (callTail argument) := by
  intro tokens call rest done
  obtain ⟨_, _, _, _, -, -, -, named, listed, -⟩ := callTail_eq_done.1 done
  exact Nat.max_le.2 ⟨within named, many_within within listed⟩

/-- A name takes one level more than what stands inside. -/
lemma name_within (named : Within most Word.room name) (argued : Within most Word.room argument) :
    Within (most + 1) Word.room (Grammar.name name argument) := by
  intro tokens word rest done
  obtain done | ⟨-, done | ⟨-, done⟩⟩ := name_eq_done.1 done
  · exact literal_within done
  · obtain ⟨_, _, _, -, -, called, rfl⟩ := substitution_eq_done.1 done
    exact Nat.succ_le_succ (callTail_within argued called)
  · obtain ⟨_, _, _, -, -, -, read, rfl⟩ := reference_eq_done.1 done
    exact Nat.succ_le_succ (named read)

/-- A vector expansion takes no level of its own. -/
lemma vector_within (named : Within most Word.room name)
    (argued : Within most Word.room argument) :
    Within (most + 1) Word.room (vector name argument) := by
  intro tokens word rest done
  obtain ⟨_, _, _, -, -, rfl, ⟨_, called, rfl⟩ | ⟨-, -, _, read, rfl⟩⟩ := vector_eq_done.1 done
  · exact Nat.succ_le_succ (callTail_within argued called)
  · exact Nat.succ_le_succ (named read)

/-- An argument takes what its pieces do. -/
lemma argument_within (pieced : Within most Word.room piece) :
    Within most Word.room (Grammar.argument piece) := by
  intro tokens word rest done
  obtain ⟨first, _, pieces, read, glued, rfl⟩ := argument_eq_done.1 done
  have adjacent : Within most Word.room (Rule.adjacent piece) :=
    fun _ _ _ done => pieced (adjacent_eq_done.1 done).2
  rw [glue_room]
  exact Nat.max_le.2 ⟨pieced read, many_within adjacent glued⟩

/-- What is read with so much room takes no more. -/
lemma words_within (room : Nat) :
    Within room Word.room (nameAt limit room) ∧ Within room Word.room (pieceAt limit room) := by
  induction room with
  | zero => exact ⟨nofun, nofun⟩
  | succ room ih =>
    obtain ⟨named, pieced⟩ := ih
    have argued := argument_within pieced
    refine ⟨name_within named argued, fun tokens word rest done => ?_⟩
    obtain done | ⟨-, done⟩ := or_eq_done.1 done
    · exact vector_within named argued done
    · exact name_within named argued done

/-- An argument is only read with room for its tree. -/
lemma argumentAt_within (room : Nat) : Within room Word.room (argumentAt limit room) :=
  argument_within (words_within room).2

/-- That no statement is there is only known where there is room for one and for its first piece. -/
lemma room_of_absent (absent : statementAt limit room tokens = .absent) : 2 ≤ room := by
  have fails (tokens : List Token) : ∃ error, argumentAt limit 0 tokens = .failed error :=
    ⟨_, rfl⟩
  match room with
  | 0 => cases absent
  | 1 =>
    obtain ⟨-, absent⟩ := or_eq_absent.1 absent
    obtain ⟨-, absent⟩ := or_eq_absent.1 absent
    obtain ⟨error, failed⟩ := fails tokens
    obtain absent | ⟨_, _, done, -⟩ := bind_eq_absent.1 absent
    · cases failed.symm.trans absent
    · cases failed.symm.trans done
  | room + 2 => exact Nat.le_add_left 2 room

/-- Where statements end in front of a token, another one was looked for. -/
lemma statements_within {body : List (Statement Token)} {t : Token} {rest : List Token}
    (stated : Within room Statement.room (statementAt limit room))
    (done : statements (statementAt limit room) tokens = .done body (t :: rest)) :
    Statement.roomAll body ≤ room := by
  obtain ⟨middle, listed, left⟩ := statements_eq_done.1 done
  have consumes : Consumes (separated (statementAt limit room)) :=
    (separated_reads (statementAt_reads room)).consumes id
  have absent : statementAt limit room (t :: rest) = .absent := by
    obtain rfl | absent := (many_repeats consumes listed).ends
    · cases left
    · obtain absent | ⟨_, _, dropped, absent⟩ := bind_eq_absent.1 absent
      · cases absent
      · cases dropped
        rwa [left] at absent
  refine Statement.roomAll_le (room_of_absent absent) (many_all (fun read => ?_) listed)
  exact stated (separated_eq_done.1 read)

/-- Optional arguments take what the arguments do. -/
lemma parameters_within (within : Within most Word.room argument) :
    Within most (fun args => Word.roomAll (args.getD [])) (optional (parenthesized argument)) := by
  intro tokens args rest done
  obtain ⟨_, rfl, read⟩ | ⟨rfl, -, -⟩ := optional_eq_done.1 done
  · obtain ⟨_, _, _, -, -, listed, -⟩ := parenthesized_eq_done.1 read
    exact many_within within listed
  · exact Nat.zero_le _

/-- A statement is only read with room for its tree. -/
lemma statementAt_within (room : Nat) : Within room Statement.room (statementAt limit room) := by
  induction room with
  | zero => exact nofun
  | succ room ih =>
    have argued : Within room Word.room (argumentAt limit room) := argumentAt_within room
    intro tokens s rest done
    obtain done | ⟨-, done⟩ := or_eq_done.1 done
    · obtain ⟨_, _, _, _, -, -, listed, -, rfl⟩ := block_eq_done.1 done
      exact Nat.succ_le_succ (statements_within ih listed)
    · obtain done | ⟨-, done⟩ := or_eq_done.1 done
      · obtain ⟨_, _, _, _, _, _, _, -, -, -, named, listed, controlled, rfl⟩ :=
          control_eq_done.1 done
        have call := Nat.max_le.2 ⟨argued named, parameters_within argued listed⟩
        exact Nat.succ_le_succ (Nat.max_le.2 ⟨call, ih controlled⟩)
      · obtain ⟨_, _, _, named, listed, -, rfl⟩ := command_eq_done.1 done
        exact Nat.succ_le_succ (Nat.max_le.2 ⟨argued named, many_within argued listed⟩)

/-- A script is only read with room for its statements. -/
lemma script_within (room : Nat) : Within room Statement.roomAll (script limit room) := by
  intro tokens body rest done
  obtain ⟨marker, listed, -⟩ := script_eq_done.1 done
  exact statements_within (statementAt_within room) listed

/-- A limit keeps out the trees that take more room, and no others. -/
lemma parseTokens_limit (ends : EndsOnce tokens) (limited : 0 < limit)
    {body : List (Statement Token)} :
    parseTokens limit tokens = .ok body ↔
      parseTokens 0 tokens = .ok body ∧ Statement.roomAll body ≤ limit := by
  constructor
  · intro read
    obtain ⟨rest, done⟩ := finish_eq_ok.1 read
    have fits : Statement.roomAll body ≤ room limit tokens := script_within _ done
    obtain ⟨d, proper, rfl, rfl⟩ := script_reads _ done
    obtain rfl := ends.rest_eq_nil proper
    rw [List.append_nil] at fits ⊢
    rw [room, if_neg limited.ne'] at fits
    exact ⟨parseTokens_tokens d proper (.inl rfl), fits⟩
  · rintro ⟨read, fits⟩
    obtain ⟨d, proper, rfl, rfl⟩ := (parseTokens_eq_ok ends).1 read
    exact parseTokens_tokens d proper (.inr fits)

end Grammar

variable {options : Options} {limit : Nat} {source : String} {script : Script}

/-- The tokens of a text end with their only end marker. -/
lemma tokenize_endsOnce {tokens : List Token} (split : tokenize options source = .ok tokens) :
    Grammar.EndsOnce tokens :=
  (tokenize_tiling split).2

namespace Script

/-- A text is parsed if it is split and its tokens are. -/
lemma parse_of_tokens {tokens : List Token} {body : List (Statement Token)}
    (split : tokenize options source = .ok tokens)
    (built : Grammar.parseTokens limit tokens = .ok body) :
    parse options limit source = .ok ⟨source, body⟩ := by
  rw [parse, split]
  show (Grammar.parseTokens limit tokens).bind _ = _
  rw [built]
  rfl

/-- A script that is read keeps its text. -/
lemma parse_source (read : parse options limit source = .ok script) : script.source = source := by
  obtain ⟨tokens, split, built⟩ := parse_eq_ok read
  have same := (parse_of_tokens split built).symm.trans read
  rw [← Except.ok.inj same]

/-- With a limit, a text is read if it is read without one and its tree takes no more room. -/
lemma parse_limit (limited : 0 < limit) :
    parse options limit source = .ok script ↔
      parse options 0 source = .ok script ∧ Statement.roomAll script.body ≤ limit := by
  constructor
  · intro read
    obtain ⟨tokens, split, built⟩ := parse_eq_ok read
    obtain ⟨free, fits⟩ := (Grammar.parseTokens_limit (tokenize_endsOnce split) limited).1 built
    obtain rfl := parse_source read
    exact ⟨parse_of_tokens split free, fits⟩
  · rintro ⟨read, fits⟩
    obtain ⟨tokens, split, built⟩ := parse_eq_ok read
    obtain rfl := parse_source read
    exact parse_of_tokens split
      ((Grammar.parseTokens_limit (tokenize_endsOnce split) limited).2 ⟨built, fits⟩)

/-- The same for all limits, zero being none. -/
lemma parse_iff_room :
    parse options limit source = .ok script ↔
      parse options 0 source = .ok script ∧
        (limit = 0 ∨ Statement.roomAll script.body ≤ limit) := by
  obtain rfl | limited := Nat.eq_zero_or_pos limit
  · simp
  · rw [parse_limit limited, or_iff_right limited.ne']

/-- What is read has the shapes that the grammar gives to words. -/
lemma parse_shaped (read : parse options limit source = .ok script) :
    Statement.AllShaped script.body := by
  obtain ⟨tokens, split, built⟩ := parse_eq_ok read
  obtain ⟨rest, done⟩ := Grammar.finish_eq_ok.1 built
  obtain ⟨d, -, -, tree⟩ := Grammar.script_reads _ done
  exact tree ▸ d.shapes

/-- The limit of nesting holds in what is read and changes nothing else: no statement, piece or name
lies on a deeper level, so the tree has at most four edges for each level, and with any larger limit
and without one the same tree is read. -/
theorem limit_holds_and_no_more (limited : 0 < limit)
    (read : parse options limit source = .ok script) :
    (∀ l ∈ Statement.levelsAll 1 script.body, l ≤ limit) ∧
    script.root.outline.height ≤ 4 * limit ∧
    (∀ larger, limit ≤ larger → parse options larger source = .ok script) ∧
    parse options 0 source = .ok script := by
  obtain ⟨free, fits⟩ := (parse_limit limited).1 read
  obtain ⟨-, levels, -⟩ := (Statement.roomAll_le_iff 0 limit script.body).1 (by omega)
  have low := Statement.heightAll_lt script.body (parse_shaped read)
  refine ⟨levels, ?_, ?_, free⟩
  · show Outline.heightAll (Statement.outlines script.body) ≤ 4 * limit
    omega
  · exact fun larger more => (parse_limit (limited.trans_le more)).2 ⟨free, fits.trans more⟩

/-- The word with the variable is on the third level, and the name of the variable on the fourth. -/
theorem printing_block_within : 0 < 4 ∧ ∃ script, parse {} 4 "{ print $x }" = .ok script ∧
    (∀ l ∈ Statement.levelsAll 1 script.body, l ≤ 4) ∧ script.root.outline.height ≤ 4 * 4 ∧
    (∀ larger, 4 ≤ larger → parse {} larger "{ print $x }" = .ok script) ∧
    parse {} 0 "{ print $x }" = .ok script := by
  obtain ⟨script, read⟩ : ∃ script, parse {} 4 "{ print $x }" = .ok script := ⟨_, rfl⟩
  exact ⟨by decide, script, read, limit_holds_and_no_more (by decide) read⟩

/-- Exactly this is read with a limit: what is read without one, if no statement, piece or name lies
on a deeper level, and if two levels more are left in the script and in every block. -/
theorem parse_iff_levels (limited : 0 < limit) :
    parse options limit source = .ok script ↔
      parse options 0 source = .ok script ∧
      (∀ l ∈ Statement.levelsAll 1 script.body, l ≤ limit) ∧
      ∀ l ∈ 0 :: Statement.blocksAll 1 script.body, l + 2 ≤ limit := by
  have fits := Statement.roomAll_le_iff 0 limit script.body
  rw [Nat.zero_add, Nat.zero_add, Nat.zero_add] at fits
  rw [parse_limit limited, List.forall_mem_cons, Nat.zero_add, fits, and_left_comm (a := 2 ≤ limit)]

/-- A block takes three levels. -/
theorem block_within : 0 < 3 ∧ ∃ script, parse {} 3 "{}" = .ok script := by
  obtain ⟨script, read, levels⟩ : ∃ script, parse {} 0 "{}" = .ok script ∧
      (∀ l ∈ Statement.levelsAll 1 script.body, l ≤ 3) ∧
      ∀ l ∈ 0 :: Statement.blocksAll 1 script.body, l + 2 ≤ 3 := ⟨_, rfl, by decide, by decide⟩
  exact ⟨by decide, script, (parse_iff_levels (by decide)).2 ⟨read, levels⟩⟩

/-- With a limit of one level, neither a block on the first level is read nor an empty text. -/
theorem shallow_not_read :
    (∃ script, parse {} 0 "{}" = .ok script ∧
      (∀ l ∈ Statement.levelsAll 1 script.body, l ≤ 1) ∧
      parse {} 1 "{}" = .error ⟨.grammar (.nesting 1), ⟨0, 1⟩⟩) ∧
    ∃ script, parse {} 0 "" = .ok script ∧ Statement.levelsAll 1 script.body = [] ∧
      parse {} 1 "" = .error ⟨.grammar (.nesting 1), ⟨0, 0⟩⟩ :=
  ⟨⟨_, rfl, by decide, rfl⟩, _, rfl, rfl, rfl⟩

end Script

end Scriptlet
