import Scriptlet.Excerpt
import Scriptlet.Proofs.Lexer.Tiling

/-!
# What an excerpt shows

The lines of a text, their numbers and the character above the caret. A location can be shown if a
character stands there that is no carriage return, or if it is the end of a text whose last line is
not empty: a line of the text then has its number, and the caret is beneath what stands there.
-/

namespace Scriptlet.Excerpt

/-- How wide the line numbers of an excerpt are. -/
def margin (source : String) : Nat :=
  (toString (lines source.toList).length).length

/-- A line of the text as excerpts show it, behind its number and a blank. -/
def numbered (source : String) (n : Nat) : String :=
  padded (margin source) n ++ " " ++ String.ofList ((lines source.toList).getD n [])

/-- A character other than a carriage return stands at the location, or it is the end of the text
and not at the start of a line. -/
inductive Sits (text : List Char) : Location → Prop
  | character {before c after} :
    text = before ++ c :: after →
    c ≠ '\r' →
    Sits text (.behind before)
  | ending :
    (Location.behind text).column ≠ 0 →
    Sits text (.behind text)

section Lines

variable {line before after text : List Char}

/-- A location is not at the start of a line if a character behind the last line feed comes before
it. -/
lemma column_behind {c : Char} {front back : List Char} (inner : '\n' ∉ c :: back) :
    (Location.behind (front ++ c :: back)).column ≠ 0 := by
  intro first
  have nothing := List.length_eq_zero_iff.1 first
  refine List.rtakeWhile_eq_nil_iff.1 nothing (by simp) ?_
  rw [List.getLast_append_of_ne_nil _ (List.cons_ne_nil c back)]
  have inside := List.getLast_mem (List.cons_ne_nil c back)
  simpa using ne_of_mem_of_not_mem inside inner

/-- A line feed ends a line. -/
lemma lines_feed (plain : '\n' ∉ line) (rest : List Char) :
    lines (line ++ '\n' :: rest) = dropReturn line :: lines rest := by
  rw [lines, List.splitOn_append_cons_self_of_not_mem plain, List.reverse_cons, lines]
  cases split : (rest.splitOn '\n').reverse with
  | nil => exact absurd (List.reverse_eq_nil_iff.1 split) (List.splitOnP_ne_nil _ _)
  | cons last init => simp

/-- What no line feed ends is a line only if it is not empty. -/
lemma lines_last (plain : '\n' ∉ line) (filled : line ≠ []) : lines line = [line] := by
  have single : line.splitOn '\n' = [line] :=
    List.splitOnP_eq_singleton fun c inside => by
      simpa using ne_of_mem_of_not_mem inside plain
  rw [lines, single]
  simp [filled]

/-- The lines in front of a location, and the line it is in. -/
lemma lines_behind (before : List Char) :
    ∃ above tail, '\n' ∉ tail ∧ Location.behind before = ⟨above.length, tail.length⟩ ∧
      ∀ after, lines (before ++ after) = above ++ lines (tail ++ after) := by
  induction before using List.reverseRecOn with
  | nil => exact ⟨[], [], List.not_mem_nil, rfl, fun after => rfl⟩
  | append_singleton before c ih =>
    obtain ⟨above, tail, plain, place, split⟩ := ih
    have next : Location.behind (before ++ [c]) = (Location.behind before).next c := by
      rw [← Location.after_origin, Location.after_append, Location.after_origin]
      rfl
    rw [next, place, Location.next]
    by_cases feed : c = '\n'
    · subst feed
      refine ⟨above ++ [dropReturn tail], [], List.not_mem_nil, by simp, fun after => ?_⟩
      rw [List.append_assoc, split, List.singleton_append, lines_feed plain]
      simp
    · refine ⟨above, tail ++ [c], by simp [plain, Ne.symm feed], by simp [feed], fun after => ?_⟩
      rw [List.append_assoc, split, List.append_assoc]

/-- A character that is no carriage return is never dropped from a line. -/
lemma dropReturn_cons {c : Char} (solid : c ≠ '\r') (before after : List Char) :
    ∃ rest, dropReturn (before ++ c :: after) = before ++ c :: rest := by
  rw [dropReturn]
  split
  case isTrue last =>
    cases after using List.reverseRecOn with
    | nil =>
      rw [List.getLast?_concat] at last
      exact absurd (Option.some.inj last) solid
    | append_singleton after d =>
      refine ⟨after, ?_⟩
      rw [← List.cons_append, ← List.append_assoc, List.dropLast_concat]
  case isFalse => exact ⟨after, rfl⟩

/-- Without its carriage return a line is no longer. -/
lemma length_dropReturn_le (line : List Char) : (dropReturn line).length ≤ line.length := by
  rw [dropReturn]
  split
  · simp
  · exact Nat.le_refl _

/-- The first line shows what stands in it behind its beginning. -/
lemma lines_first {start : List Char} (plain : '\n' ∉ start) (filled : start ++ after ≠ [])
    (solid : after.head? ≠ some '\r') :
    ∃ first below, lines (start ++ after) = first :: below ∧
      first[start.length]? = after.head?.filter (· != '\n') := by
  by_cases feed : '\n' ∈ after
  · obtain ⟨inner, rest, rfl, free⟩ := List.eq_append_cons_of_mem feed
    have whole : '\n' ∉ start ++ inner := by simp [plain, free]
    refine ⟨_, _, by rw [← List.append_assoc, lines_feed whole], ?_⟩
    cases inner with
    | nil =>
      have short := length_dropReturn_le start
      simpa [Option.filter] using short
    | cons c inner =>
      obtain ⟨more, kept⟩ := dropReturn_cons (by simpa using solid) start inner
      have other : c ≠ '\n' := fun same => free (by simp [same])
      rw [kept]
      simp [Option.filter, other]
  · have whole : '\n' ∉ start ++ after := by simp [plain, feed]
    refine ⟨_, [], lines_last whole filled, ?_⟩
    cases after with
    | nil => simp
    | cons c after =>
      have other : c ≠ '\n' := fun same => feed (by simp [same])
      simp [Option.filter, other]

/-- Where a location sits, its line shows what stands there. -/
lemma Sits.shown {place : Location} (sits : Sits text place) :
    ∃ before after row, text = before ++ after ∧ place = .behind before ∧
      (lines text)[place.line]? = some row ∧
      row[place.column]? = after.head?.filter (· != '\n') := by
  obtain ⟨before, after, split, rfl, solid, reached⟩ : ∃ before after, text = before ++ after ∧
      place = .behind before ∧ after.head? ≠ some '\r' ∧
      (after = [] → (Location.behind before).column ≠ 0) := by
    cases sits with
    | character split solid => exact ⟨_, _, split, rfl, by simpa using solid, nofun⟩
    | ending reached => exact ⟨text, [], by simp, rfl, nofun, fun _ => reached⟩
  obtain ⟨above, start, plain, place, whole⟩ := lines_behind before
  rw [place] at reached ⊢
  have filled : start ++ after ≠ [] := by
    intro nothing
    obtain ⟨rfl, rfl⟩ := List.append_eq_nil_iff.1 nothing
    exact reached rfl rfl
  obtain ⟨row, below, first, shows⟩ := lines_first plain filled solid
  refine ⟨before, after, row, split, place.symm, ?_, shows⟩
  rw [split, whole, first]
  simp

end Lines

section Numbers

/-- The numbers of the lines are all as wide as the number of lines. -/
lemma length_padded {count n : Nat} (below : n < count) :
    (padded (toString count).length n).length = (toString count).length := by
  have fits : (toString n).length ≤ (toString count).length := by
    have filled : 0 < (toString count).length := by
      show 0 < (Nat.repr count).length
      rw [Nat.repr, String.length_ofList]
      exact Nat.length_toDigits_pos
    refine (Nat.length_repr_le_iff filled).2 (below.trans ?_)
    exact (Nat.length_repr_le_iff filled).1 (Nat.le_refl _)
  rw [padded, String.length_append, String.length_ofList, List.length_replicate]
  omega

variable {source : String} {place : Location}

/-- The margin is as wide as the greatest number of a line. -/
lemma margin_eq (counted : 0 < (lines source.toList).length) :
    numberWidth (lines source.toList).length = margin source := by
  rw [numberWidth, margin, Nat.max_eq_left counted]

/-- What stands in a line stands in the excerpt behind the number and the blank. -/
lemma getElem?_numbered {n : Nat} {row : List Char}
    (present : (lines source.toList)[n]? = some row) (column : Nat) :
    (numbered source n).toList[margin source + 1 + column]? = row[column]? := by
  obtain ⟨below, -⟩ := List.getElem?_eq_some_iff.1 present
  have width : (padded (margin source) n ++ " ").toList.length = margin source + 1 := by
    rw [String.length_toList, String.length_append, margin, length_padded below]
    rfl
  have shown : (lines source.toList).getD n [] = row := by
    rw [List.getD_eq_getElem?_getD, present, Option.getD_some]
  rw [numbered, String.toList_append, List.getElem?_append_right (by omega), width, shown,
    Nat.add_sub_cancel_left, String.toList_ofList]

/-- What is made of the lines from the first to the last one and their numbers. -/
lemma map_shown {all : List (List Char)} {first last : Nat} (present : last < all.length)
    (display : Nat → String) {describe : List Char × Nat → String}
    (same : ∀ n row, all[n]? = some row → describe (row, n) = display n) :
    (((all.take (last + 1)).drop first).zipIdx first).map describe =
      ((List.range (last + 1)).drop first).map display := by
  refine List.ext_getElem (by simp; omega) fun i left right => ?_
  have inside : first + i < all.length := by
    simp at left
    omega
  rw [List.getElem_map, List.getElem_map, List.getElem_zipIdx, List.getElem_drop,
    List.getElem_take, List.getElem_drop, List.getElem_range]
  exact same _ _ (List.getElem?_eq_getElem inside)

/-- The excerpt for a location in a line of the text. -/
lemma render_eq (message : String) (present : place.line < (lines source.toList).length) :
    render source place message = "\n".intercalate (
      (if linesAbove < place.line then ["..."] else []) ++
      ((List.range (place.line + 1)).drop (place.line - linesAbove)).map (numbered source) ++
      [String.ofList (List.replicate (margin source + 1 + place.column) ' ') ++ "^",
        s!"line {place.line}: {message}"]) := by
  have width : numberWidth (lines source.toList).length = margin source := margin_eq (by omega)
  have ellipsis : (if place.line - linesAbove = 0 then [] else ["..."]) =
      if linesAbove < place.line then ["..."] else [] := by
    by_cases above : linesAbove < place.line
    · rw [if_pos above, if_neg (by omega)]
    · rw [if_neg above, if_pos (by omega)]
  have margins : place.column + 1 + margin source = margin source + 1 + place.column := by omega
  rw [render]
  simp only [width, ellipsis, margins]
  rw [map_shown present (numbered source)]
  intro n row here
  rw [numbered, List.getD_eq_getElem?_getD, here]
  rfl

end Numbers

end Scriptlet.Excerpt
