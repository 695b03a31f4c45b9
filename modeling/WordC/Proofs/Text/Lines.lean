import Mathlib.Data.List.Induction
import Mathlib.Data.List.TakeWhile
import WordC.Location
import WordC.Text.Lines

namespace WordC

-- The place behind a text, said by counting: one line per line feed, and one column per character since the last
-- one.
def Location.behind (file : String) (before : List Char) : Location :=
  ⟨file, 1 + before.count '\n', 1 + (before.reverse.takeWhile (· ≠ '\n')).length⟩

theorem Position.past_append (place : Position) (first second : List Char) :
    place.past (first ++ second) = (place.past first).past second := by
  unfold Position.past
  rw [List.foldl_append]

theorem Position.past_start (before : List Char) :
    Position.start.past before = ⟨1 + before.count '\n', 1 + (before.reverse.takeWhile (· ≠ '\n')).length,
      before.length, before.length - (before.reverse.takeWhile (· ≠ '\n')).length⟩ := by
  induction before using List.reverseRecOn with
  | nil => rfl
  | append_singleton before c ih =>
    rw [Position.past_append, ih]
    by_cases feed : c = '\n'
    · subst feed
      simp [Position.past, Position.next, Nat.add_assoc]
    · simp [Position.past, Position.next, feed, Nat.add_assoc]

-- A text without line feeds does not leave its line.
theorem Position.past_on_line (place : Position) (flat : ∀ c ∈ passed, c ≠ '\n') :
    (place.past passed).line = place.line ∧ (place.past passed).lineStart = place.lineStart := by
  induction passed generalizing place with
  | nil => exact ⟨rfl, rfl⟩
  | cons c passed ih =>
    obtain ⟨first, later⟩ := List.forall_mem_cons.mp flat
    have stays : (place.next c).line = place.line ∧ (place.next c).lineStart = place.lineStart := by
      simp [Position.next, first]
    obtain ⟨line, start⟩ := ih (place.next c) later
    exact ⟨line.trans stays.1, start.trans stays.2⟩

theorem Position.inFile_past_start (file : String) (before : List Char) :
    (Position.start.past before).inFile file = .behind file before := by
  rw [Position.past_start]
  simp [Position.inFile, Location.behind]

namespace Text

theorem splitLines_eq_splitOn (text : List Char) : splitLines text = text.splitOn '\n' := by
  induction text with
  | nil => rfl
  | cons c rest ih =>
    rw [splitLines, List.splitOn_cons_eq_if_modifyHead, ih]
    by_cases feed : c = '\n'
    · simp [feed]
    · have filled : rest.splitOn '\n' ≠ [] := List.splitOn_ne_nil '\n' rest
      cases split : rest.splitOn '\n' with
      | nil => exact absurd split filled
      | cons line lines => simp [feed]

theorem length_splitOn (text : List Char) : (text.splitOn '\n').length = text.count '\n' + 1 := by
  induction text with
  | nil => rfl
  | cons c rest ih =>
    rw [List.splitOn_cons_eq_if_modifyHead]
    by_cases feed : c = '\n'
    · simp [feed, ih]
    · simp [feed, ih]

theorem head_splitOn (text : List Char) : (text.splitOn '\n')[0]? = some (text.takeWhile (· ≠ '\n')) := by
  induction text with
  | nil => rfl
  | cons c rest ih =>
    rw [List.splitOn_cons_eq_if_modifyHead]
    by_cases feed : c = '\n'
    · simp [feed]
    · cases split : rest.splitOn '\n' with
      | nil => simp [split] at ih
      | cons line lines => simp_all

-- The line on which a text is cut goes back to the last line feed before the cut and on to the next one behind it.
theorem splitOn_at (before after : List Char) :
    ((before ++ after).splitOn '\n')[before.count '\n']? =
      some ((before.reverse.takeWhile (· ≠ '\n')).reverse ++ after.takeWhile (· ≠ '\n')) := by
  induction before using List.reverseRecOn generalizing after with
  | nil => simpa using head_splitOn after
  | append_singleton before c ih =>
    rw [List.append_assoc, List.singleton_append]
    by_cases feed : c = '\n'
    · subst feed
      have later : before.count '\n' + 1 = (before.splitOn '\n').length := (length_splitOn before).symm
      rw [List.splitOn_append_cons_self, List.count_append, List.count_singleton_self, later,
        List.getElem?_append_right (Nat.le_refl _), Nat.sub_self, head_splitOn]
      simp
    · have same : (before ++ [c]).count '\n' = before.count '\n' := by simp [feed]
      rw [same, ih]
      simp [feed]

theorem lineAt?_behind (file : String) (before after : List Char) {text : String}
    (split : text.toList = before ++ after) :
    lineAt? (lines text) (Location.behind file before).line =
      some (String.ofList ((before.reverse.takeWhile (· ≠ '\n')).reverse ++ after.takeWhile (· ≠ '\n'))) := by
  have number : ((1 : Int) + before.count '\n').toNat - 1 = before.count '\n' := by omega
  have positive : (0 : Int) < 1 + before.count '\n' := by omega
  simp only [lineAt?, Location.behind, if_pos positive, number, lines, List.getElem?_map, splitLines_eq_splitOn, split,
    splitOn_at, Option.map_some]

theorem takeWhile_ne_eq (text : List Char) (c : Char) :
    text.takeWhile (· ≠ c) = match text.idxOf? c with | none => text | some ahead => text.take ahead := by
  induction text with
  | nil => rfl
  | cons d rest ih =>
    rw [List.idxOf?_cons]
    by_cases same : d = c
    · simp [same]
    · rw [List.takeWhile_cons, if_pos (by simpa using same), ih]
      cases rest.idxOf? c with
      | none => simp [same]
      | some ahead => simp [same]

theorem lineFrom_eq (text : List Char) (start : Nat) : lineFrom text start = (text.drop start).takeWhile (· ≠ '\n') := by
  rw [takeWhile_ne_eq, lineFrom, slice, lineEnd]
  cases (text.drop start).idxOf? '\n' with
  | none => simp
  | some ahead => simp [List.drop_take]

-- The line start is behind the last line feed.
theorem split_at_lineStart (before : List Char) :
    ∃ earlier since, before = earlier ++ since ∧ since = (before.reverse.takeWhile (· ≠ '\n')).reverse ∧
      (∀ c ∈ since, c ≠ '\n') ∧ (∀ c ∈ earlier.getLast?, c = '\n') ∧
      (Position.start.past before).lineStart = earlier.length := by
  refine ⟨(before.reverse.dropWhile (· ≠ '\n')).reverse, _, ?_, rfl, ?_, ?_, ?_⟩
  · rw [← List.reverse_append, List.takeWhile_append_dropWhile, List.reverse_reverse]
  · intro c member
    simpa using List.mem_takeWhile_imp (List.mem_reverse.mp member)
  · intro c last
    have stops := List.head?_dropWhile_not (· ≠ '\n') before.reverse
    rw [List.getLast?_reverse, Option.mem_def] at last
    rw [last] at stops
    simpa using stops
  · have whole := congrArg List.length (List.takeWhile_append_dropWhile (p := (· ≠ '\n')) (l := before.reverse))
    rw [List.length_append, List.length_reverse] at whole
    rw [Position.past_start, List.length_reverse]
    simp only
    omega

-- The line that is sought from the line start is the line that the text is cut on.
theorem lineFrom_lineStart (before after : List Char) :
    lineFrom (before ++ after) (Position.start.past before).lineStart =
      (before.reverse.takeWhile (· ≠ '\n')).reverse ++ after.takeWhile (· ≠ '\n') := by
  obtain ⟨earlier, since, whole, since_eq, flat, -, start⟩ := split_at_lineStart before
  rw [lineFrom_eq, start, ← since_eq, whole, List.append_assoc, List.drop_left,
    List.takeWhile_append_of_pos (by simpa using flat)]

theorem lineAt?_past (before after : List Char) {text : String} (split : text.toList = before ++ after) :
    lineAt? (lines text) (Position.start.past before).line =
      some (String.ofList (lineFrom text.toList (Position.start.past before).lineStart)) := by
  have place := congrArg Location.line (Position.inFile_past_start "" before)
  have shown := lineAt?_behind "" before after split
  rw [← place] at shown
  rw [split, lineFrom_lineStart]
  exact shown

end Text

end WordC
