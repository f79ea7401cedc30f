import Mathlib.Data.List.TakeWhile
import Mathlib.Tactic.Lemma
import Scriptlet.Text.Blank

/-!
# Words of a text

The words of a text are those in front of a blank and those behind it (`splitBlanks_append`), and a text
without blanks is one word. So it does not matter whether texts are put together with spaces before or
after they are taken apart (`words_unwords`), and a text goes word by word (`words_eq_cons`).
-/

namespace Scriptlet.Text

variable {c : Char} {cs ds : List Char} {s : String} {ws : List String}

/-- Characters of which none is blank, and at least one. -/
def IsWord (cs : List Char) : Prop :=
  cs ≠ [] ∧ ∀ c ∈ cs, isBlank c = false

/-- A word is added in front of the others. -/
lemma addWord_append (word : List Char) (front back : List (List Char)) :
    addWord word (front ++ back) = addWord word front ++ back := by
  rw [addWord, addWord]
  split <;> rfl

/-- Words that are there before others come in front of them stay behind them. -/
lemma foldr_extendWords (cs : List Char) (words : List (List Char)) :
    cs.foldr extendWords ([], words) =
      ((cs.foldr extendWords ([], [])).1, (cs.foldr extendWords ([], [])).2 ++ words) := by
  induction cs with
  | nil => rfl
  | cons c cs ih =>
    rw [List.foldr_cons, List.foldr_cons, ih, extendWords, extendWords]
    split
    · rw [addWord_append]
    · rfl

/-- A blank parts the words in front of it from those behind it. -/
lemma splitBlanks_append (blank : isBlank c = true) (cs ds : List Char) :
    splitBlanks (cs ++ c :: ds) = splitBlanks cs ++ splitBlanks ds := by
  have start : (c :: ds).foldr extendWords ([], []) = ([], splitBlanks ds) := by
    rw [List.foldr_cons, extendWords, if_pos blank]
    rfl
  show addWord ((cs ++ c :: ds).foldr extendWords ([], [])).1
    ((cs ++ c :: ds).foldr extendWords ([], [])).2 = _
  rw [List.foldr_append, start, foldr_extendWords, addWord_append]
  rfl

/-- A blank in front is skipped. -/
lemma splitBlanks_cons (blank : isBlank c = true) (cs : List Char) :
    splitBlanks (c :: cs) = splitBlanks cs :=
  splitBlanks_append blank [] cs

/-- Characters without a blank stay together. -/
lemma foldr_extendWords_of_solid (solid : ∀ c ∈ cs, isBlank c = false) :
    cs.foldr extendWords ([], []) = (cs, []) := by
  induction cs with
  | nil => rfl
  | cons c cs ih =>
    have here := solid c (List.mem_cons_self ..)
    rw [List.foldr_cons, ih fun d mem => solid d (List.mem_cons_of_mem _ mem), extendWords, here]
    rfl

/-- A word is the only one of itself. -/
lemma IsWord.splitBlanks (h : IsWord cs) : splitBlanks cs = [cs] := by
  rw [Text.splitBlanks, foldr_extendWords_of_solid h.2, addWord, if_neg]
  rw [List.isEmpty_iff]
  exact h.1

/-- Characters of which none is blank make a word, unless there are none. -/
lemma isWord_of_mem_addWord {word : List Char} {words : List (List Char)}
    (solid : ∀ c ∈ word, isBlank c = false) (behind : ∀ w ∈ words, IsWord w) :
    ∀ w ∈ addWord word words, IsWord w := by
  rw [addWord]
  split
  · exact behind
  · rename_i some
    rw [List.isEmpty_iff] at some
    exact List.forall_mem_cons.2 ⟨⟨some, solid⟩, behind⟩

/-- On the way, the word in progress has no blank, and those behind it are words. -/
lemma isWord_of_mem_foldr (cs : List Char) :
    (∀ c ∈ (cs.foldr extendWords ([], [])).1, isBlank c = false) ∧
      ∀ w ∈ (cs.foldr extendWords ([], [])).2, IsWord w := by
  induction cs with
  | nil => exact ⟨nofun, nofun⟩
  | cons c cs ih =>
    rw [List.foldr_cons, extendWords]
    split
    · exact ⟨nofun, isWord_of_mem_addWord ih.1 ih.2⟩
    · rename_i other
      exact ⟨List.forall_mem_cons.2 ⟨Bool.eq_false_iff.2 other, ih.1⟩, ih.2⟩

/-- What a text is split into are words. -/
lemma isWord_of_mem_splitBlanks {word : List Char} (mem : word ∈ splitBlanks cs) : IsWord word := by
  obtain ⟨solid, behind⟩ := isWord_of_mem_foldr cs
  exact isWord_of_mem_addWord solid behind word mem

/-- There is no word if and only if all is blank. -/
lemma splitBlanks_eq_nil_iff : splitBlanks cs = [] ↔ ∀ c ∈ cs, isBlank c = true := by
  induction cs with
  | nil => exact ⟨fun _ => nofun, fun _ => rfl⟩
  | cons c cs ih =>
    rw [List.forall_mem_cons]
    cases blank : isBlank c with
    | true => rw [splitBlanks_cons blank, ih, and_iff_right rfl]
    | false =>
      -- the word in progress starts with this character
      have filled : splitBlanks (c :: cs) ≠ [] := by
        rw [splitBlanks, List.foldr_cons, extendWords, blank]
        exact List.cons_ne_nil _ _
      exact ⟨fun none => absurd none filled, fun all => nomatch all.1⟩

/-- So are all blanks in front. -/
lemma splitBlanks_dropBlanks (cs : List Char) : splitBlanks (dropBlanks cs) = splitBlanks cs := by
  induction cs with
  | nil => rfl
  | cons c cs ih =>
    rw [dropBlanks, List.dropWhile_cons]
    split
    · rename_i blank
      rw [splitBlanks_cons blank]
      exact ih
    · rfl

/-- A word with nothing or a blank behind it stands by itself. -/
lemma splitBlanks_word_append (word : IsWord cs) (ends : ∀ c ∈ ds.head?, isBlank c = true) :
    splitBlanks (cs ++ ds) = cs :: splitBlanks ds := by
  cases ds with
  | nil =>
    rw [List.append_nil, word.splitBlanks]
    rfl
  | cons c ds =>
    have blank : isBlank c = true := ends c rfl
    rw [splitBlanks_append blank, splitBlanks_cons blank, word.splitBlanks, List.singleton_append]

/-- What starts with no blank starts with a word. -/
lemma isWord_takeWhile (some : cs ≠ []) (bare : ∀ c ∈ cs.head?, isBlank c = false) :
    IsWord (cs.takeWhile fun c => !isBlank c) := by
  constructor
  · cases cs with
    | nil => exact absurd rfl some
    | cons c cs =>
      rw [List.takeWhile_cons, bare c rfl]
      exact List.cons_ne_nil _ _
  · intro c mem
    have other := List.mem_takeWhile_imp mem
    rwa [Bool.not_eq_true'] at other

/-- A text that is not blank is its first word and what is behind that. -/
lemma splitBlanks_eq_cons (some : splitBlanks cs ≠ []) :
    splitBlanks cs = (dropBlanks cs).takeWhile (fun c => !isBlank c) ::
      splitBlanks (dropBlanks ((dropBlanks cs).dropWhile fun c => !isBlank c)) := by
  rw [splitBlanks_dropBlanks, ← splitBlanks_dropBlanks cs]
  rw [← splitBlanks_dropBlanks] at some
  have bare : ∀ c ∈ (dropBlanks cs).head?, isBlank c = false := by
    intro c mem
    have first := List.head?_dropWhile_not isBlank cs
    rw [dropBlanks] at mem
    rwa [Option.mem_def.1 mem] at first
  generalize dropBlanks cs = text at *
  have filled : text ≠ [] := by
    rintro rfl
    exact some rfl
  have ends : ∀ c ∈ (text.dropWhile fun c => !isBlank c).head?, isBlank c = true := by
    intro c mem
    have first := List.head?_dropWhile_not (fun c => !isBlank c) text
    rw [Option.mem_def.1 mem] at first
    rwa [← Bool.not_eq_false']
  have parted := splitBlanks_word_append (isWord_takeWhile filled bare) ends
  rwa [List.takeWhile_append_dropWhile] at parted

/-- The empty text has no words. -/
lemma words_empty : words "" = [] := rfl

/-- One word is joined to itself. -/
lemma unwords_singleton (s : String) : unwords [s] = s :=
  String.intercalate_singleton

/-- The words of two texts with a space between them. -/
lemma words_append_space (s t : String) : words (s ++ " " ++ t) = words s ++ words t := by
  have space : " ".toList = [' '] := rfl
  rw [words, String.toList_append, String.toList_append, space, List.append_assoc,
    List.singleton_append, splitBlanks_append rfl, List.map_append]
  rfl

/-- The words of texts put together with spaces are those of the texts, one after the other. -/
lemma words_unwords (ws : List String) : words (unwords ws) = ws.flatMap words := by
  rw [unwords]
  induction ws with
  | nil => rw [String.intercalate_nil, words_empty, List.flatMap_nil]
  | cons w ws ih =>
    cases ws with
    | nil => rw [String.intercalate_singleton, List.flatMap_singleton]
    | cons w' ws =>
      rw [String.intercalate_cons_cons, words_append_space, ih]
      rfl

/-- The words of a text are words. -/
lemma isWord_of_mem_words {w : String} (mem : w ∈ words s) : IsWord w.toList := by
  obtain ⟨word, split, rfl⟩ := List.mem_map.1 mem
  rw [String.toList_ofList]
  exact isWord_of_mem_splitBlanks split

/-- Words that are put together with spaces are the words of the text. -/
lemma words_unwords_of_isWord (all : ∀ w ∈ ws, IsWord w.toList) : words (unwords ws) = ws := by
  have each : ws.map words = ws.map fun w => [w] := by
    apply List.map_congr_left
    intro w mem
    rw [words, (all w mem).splitBlanks, List.map_singleton, String.ofList_toList]
  rw [words_unwords, List.flatMap_def, each, ← List.flatMap_def, List.flatMap_singleton']

/-- Taking a text apart a second time gives the same words. -/
lemma words_unwords_words (s : String) : words (unwords (words s)) = words s :=
  words_unwords_of_isWord fun _ => isWord_of_mem_words

/-- A text without words is blank. -/
lemma words_eq_nil_iff : words s = [] ↔ isAllBlank s = true := by
  rw [words, List.map_eq_nil_iff, splitBlanks_eq_nil_iff, isAllBlank, List.all_eq_true]

/-- There is no word in texts put together with spaces if and only if all of them are blank. -/
lemma words_unwords_eq_nil_iff : words (unwords ws) = [] ↔ ws.all isAllBlank = true := by
  rw [words_unwords, List.flatMap_eq_nil_iff, List.all_eq_true]
  exact forall_congr' fun w => imp_congr_right fun _ => words_eq_nil_iff

/-- A text that is not blank has a first word, and the others are those of the text behind it. -/
lemma words_eq_cons (some : words s ≠ []) :
    ∃ first, words s = first :: words (dropWord s) := by
  have filled : splitBlanks s.toList ≠ [] := fun none => some (List.map_eq_nil_iff.2 none)
  refine ⟨.ofList ((dropBlanks s.toList).takeWhile fun c => !isBlank c), ?_⟩
  rw [words, splitBlanks_eq_cons filled, List.map_cons, words, dropWord, String.toList_ofList]

/-- The words behind the first one are those of the text behind it. -/
lemma words_dropWord (s : String) : words (dropWord s) = (words s).tail := by
  by_cases none : words s = []
  · have blank := splitBlanks_eq_nil_iff.1 (List.map_eq_nil_iff.1 none)
    have nothing : dropBlanks s.toList = [] := List.dropWhile_eq_nil_iff.2 blank
    rw [none, dropWord, nothing]
    rfl
  · obtain ⟨first, same⟩ := words_eq_cons none
    rw [same, List.tail_cons]

end Scriptlet.Text
