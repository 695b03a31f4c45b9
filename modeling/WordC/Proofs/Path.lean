import Mathlib.Data.List.TakeWhile
import Mathlib.Data.String.Basic
import WordC.Path

namespace WordC.Path

theorem pieces_eq_splitOn (text : List Char) : pieces text = text.splitOn separator := by
  induction text with
  | nil => rfl
  | cons c rest ih =>
    rw [pieces, List.splitOn_cons_eq_if_modifyHead, ih]
    by_cases parted : c = separator
    · simp [parted]
    · have filled : rest.splitOn separator ≠ [] := List.splitOn_ne_nil separator rest
      cases split : rest.splitOn separator with
      | nil => exact absurd split filled
      | cons piece more => simp [parted]

theorem pieces_ne_nil (text : List Char) : pieces text ≠ [] := by
  rw [pieces_eq_splitOn]
  exact List.splitOn_ne_nil separator text

theorem intercalate_pieces (text : List Char) : [separator].intercalate (pieces text) = text := by
  rw [pieces_eq_splitOn]
  exact List.intercalate_splitOn separator

theorem pieces_intercalate {parts : List (List Char)} (whole : ∀ part ∈ parts, separator ∉ part) (filled : parts ≠ []) :
    pieces ([separator].intercalate parts) = parts := by
  rw [pieces_eq_splitOn]
  exact List.splitOn_intercalate separator whole filled

theorem not_mem_of_mem_pieces {text : List Char} : ∀ piece ∈ pieces text, separator ∉ piece := by
  induction text with
  | nil => simp [pieces]
  | cons c rest ih =>
    rw [pieces]
    split
    · simpa using ih
    · rename_i other
      split
      · rename_i none
        exact absurd none (pieces_ne_nil rest)
      · rename_i piece more split
        rw [split] at ih
        obtain ⟨first, later⟩ := List.forall_mem_cons.mp ih
        intro found member
        rcases List.mem_cons.mp member with rfl | old
        · simpa [Ne.symm other] using first
        · exact later found old

-- A separator in front makes an empty piece.
theorem pieces_replicate (count : Nat) (text : List Char) :
    pieces (List.replicate count separator ++ text) = List.replicate count [] ++ pieces text := by
  induction count with
  | zero => rfl
  | succ count ih => simp [List.replicate_succ, pieces, ih]

theorem intercalate_sublist {parts more : List (List Char)} (within : parts.Sublist more) :
    ([separator].intercalate parts).Sublist ([separator].intercalate more) := by
  induction within with
  | slnil => exact List.Sublist.refl _
  | @cons parts more part within ih =>
    cases more with
    | nil =>
      cases within
      simp
    | cons next more =>
      rw [List.intercalate_cons_cons]
      exact ih.trans (List.sublist_append_right _ _)
  | @cons_cons parts more part within ih =>
    cases parts with
    | nil =>
      cases more with
      | nil => exact List.Sublist.refl _
      | cons next more => simp [List.intercalate_cons_cons]
    | cons first parts =>
      cases more with
      | nil => cases within
      | cons next more =>
        rw [List.intercalate_cons_cons, List.intercalate_cons_cons]
        exact (List.Sublist.refl _).append ih

-- Pieces that lead nowhere.
def Idle (piece : String) : Prop := piece = "" ∨ piece = "."

theorem mem_parts_iff {raw : String} : part ∈ (ofText raw).parts ↔ part ∈ piecesOf raw ∧ ¬Idle part := by
  simp [ofText, Idle, not_or]

theorem parts_whole {raw : String} : ∀ part ∈ (ofText raw).parts, separator ∉ part.toList := by
  intro part member
  obtain ⟨piece, there, rfl⟩ := List.mem_map.mp (mem_parts_iff.mp member).1
  rw [String.toList_ofList]
  exact not_mem_of_mem_pieces piece there

-- A text as the separators in front of it and the rest.
theorem separators_append (raw : String) :
    ∃ count rest, raw.toList = List.replicate count separator ++ rest ∧ rest.head? ≠ some separator ∧
      (raw.toList.takeWhile (· = separator)).length = count := by
  refine ⟨_, raw.toList.dropWhile (· = separator), ?_, ?_, rfl⟩
  · have front : raw.toList.takeWhile (· = separator) =
        List.replicate (raw.toList.takeWhile (· = separator)).length separator := by
      apply List.eq_replicate_of_mem
      intro c member
      simpa using List.mem_takeWhile_imp member
    rw [← front, List.takeWhile_append_dropWhile]
  · intro first
    simpa [first] using List.head?_dropWhile_not (· = separator) raw.toList

-- The root keeps one or two of the separators in front, if there are any.
theorem toList_rootOf {raw : String} (counted : (raw.toList.takeWhile (· = separator)).length = count) :
    ∃ kept, kept ≤ count ∧ (kept = 0 ↔ count = 0) ∧ (rootOf raw).toList = List.replicate kept separator := by
  unfold rootOf
  rw [counted]
  match count with
  | 0 => exact ⟨0, by omega, by omega, rfl⟩
  | 1 => exact ⟨1, by omega, by omega, rfl⟩
  | 2 => exact ⟨2, by omega, by omega, rfl⟩
  | count + 3 => exact ⟨1, by omega, by omega, by simp; rfl⟩

theorem toList_text {path : Path} (somewhere : path.root ≠ "" ∨ path.parts ≠ []) :
    path.text.toList = path.root.toList ++ [separator].intercalate (path.parts.map String.toList) := by
  have other : ¬(path.root = "" ∧ path.parts = []) := not_and_or.mpr somewhere
  simp [text, other, separator]

-- What is left of the pieces, as lists of characters.
theorem map_parts (raw : String) :
    (ofText raw).parts.map String.toList = (pieces raw.toList).filter fun piece => piece ≠ [] && piece ≠ ['.'] := by
  have kept : (fun piece : List Char => piece ≠ [] && piece ≠ ['.']) =
      (fun piece : String => piece ≠ "" && piece ≠ ".") ∘ String.ofList := by
    funext piece
    have empty : String.ofList piece = "" ↔ piece = [] := by simp [← String.toList_inj]
    have dot : String.ofList piece = "." ↔ piece = ['.'] := by simp [← String.toList_inj]
    simp [empty, dot]
  simp only [ofText, piecesOf, List.filter_map, List.map_map, kept]
  simp [Function.comp_def]

theorem dot_mem_of_parts_nil {raw : String} (start : raw.toList.head? ≠ some separator) (filled : raw ≠ "")
    (nowhere : (ofText raw).parts = []) : '.' ∈ raw.toList := by
  have idle := map_parts raw
  rw [nowhere, List.map_nil, eq_comm, List.filter_eq_nil_iff] at idle
  cases split : raw.toList with
  | nil => exact absurd (String.toList_inj.mp (by simpa using split)) filled
  | cons c rest =>
    have other : c ≠ separator := by simpa [split] using start
    rw [split, pieces, if_neg other] at idle
    cases more : pieces rest with
    | nil => exact absurd more (pieces_ne_nil rest)
    | cons piece pieces =>
      have first := idle (c :: piece) (by simp [more])
      simp only [ne_eq, reduceCtorEq, not_false_eq_true, decide_true, Bool.true_and, decide_not, Bool.not_eq_true',
        Bool.not_eq_false, decide_eq_true_eq, List.cons.injEq] at first
      simp [first.1]

-- The shortest spelling of a path leaves out characters and moves none.
theorem text_sublist {raw : String} (filled : raw ≠ "") : (ofText raw).text.toList.Sublist raw.toList := by
  obtain ⟨count, rest, split, start, counted⟩ := separators_append raw
  obtain ⟨kept, fewer, none, root⟩ := toList_rootOf counted
  have parts : ((ofText raw).parts.map String.toList).Sublist (pieces rest) := by
    rw [map_parts, split, pieces_replicate, List.filter_append, List.filter_replicate]
    simp
  by_cases nowhere : (ofText raw).root = "" ∧ (ofText raw).parts = []
  · have dot : (ofText raw).text = "." := by simp [text, nowhere]
    have zero : count = 0 := by
      apply none.mp
      have empty : (rootOf raw).toList = [] := by rw [show rootOf raw = "" from nowhere.1]; rfl
      rw [root] at empty
      simpa using empty
    rw [zero, List.replicate_zero, List.nil_append] at split
    rw [dot]
    exact List.singleton_sublist.mpr (dot_mem_of_parts_nil (split ▸ start) filled nowhere.2)
  · rw [toList_text (not_and_or.mp nowhere), split, show (ofText raw).root = rootOf raw from rfl, root]
    apply List.Sublist.append
    · exact (List.replicate_sublist_replicate _).mpr fewer
    · rw [← intercalate_pieces rest]
      exact intercalate_sublist parts

theorem head_intercalate {parts : List (List Char)} (whole : ∀ part ∈ parts, separator ∉ part)
    (filled : ∀ part ∈ parts, part ≠ []) : ([separator].intercalate parts).head? ≠ some separator := by
  cases parts with
  | nil => simp
  | cons first parts =>
    have other := whole first List.mem_cons_self
    cases first with
    | nil => exact absurd rfl (filled [] List.mem_cons_self)
    | cons c first =>
      have apart : c ≠ separator := by
        rintro rfl
        simp at other
      cases parts <;> simpa [List.intercalate_cons_cons] using apart

theorem utf8ByteSize_text_le {raw : String} (filled : raw ≠ "") :
    (ofText raw).text.utf8ByteSize ≤ raw.utf8ByteSize := by
  have fewer := String.utf8Len_le_of_sublist (text_sublist filled)
  rwa [← String.utf8ByteSize_ofList, ← String.utf8ByteSize_ofList, String.ofList_toList, String.ofList_toList] at fewer

-- Both spellings of a path start at the top, or neither does.
theorem head_text {raw : String} :
    (ofText raw).text.toList.head? = some separator ↔ raw.toList.head? = some separator := by
  obtain ⟨count, rest, split, start, counted⟩ := separators_append raw
  obtain ⟨kept, fewer, none, root⟩ := toList_rootOf counted
  cases kept with
  | zero =>
    obtain rfl := none.mp rfl
    have relative : (ofText raw).root = "" := String.toList_inj.mp (by simpa [ofText] using root)
    rw [List.replicate_zero, List.nil_append] at split
    rw [split]
    refine iff_of_false ?_ start
    by_cases nowhere : (ofText raw).parts = []
    · simp [text, relative, nowhere, separator]
    · rw [toList_text (.inr nowhere), relative]
      apply head_intercalate
      · simpa using parts_whole
      · simp only [List.mem_map, ne_eq, forall_exists_index, and_imp]
        rintro _ part member rfl empty
        exact (mem_parts_iff.mp member).2 (.inl (by simpa using empty))
  | succ kept =>
    obtain ⟨count, rfl⟩ := Nat.exists_eq_succ_of_ne_zero (mt none.mpr (Nat.succ_ne_zero kept))
    have rooted : (ofText raw).root ≠ "" := by
      intro empty
      rw [show rootOf raw = "" from empty] at root
      cases root
    rw [toList_text (.inl rooted), show (ofText raw).root = rootOf raw from rfl, root, split]
    simp [List.replicate_succ]

-- A path that leads somewhere, with separators in its root only.
structure Regular (path : Path) (kept : Nat) : Prop where
  root : path.root.toList = List.replicate kept separator
  somewhere : path.parts ≠ []
  whole : ∀ part ∈ path.parts, separator ∉ part.toList ∧ part ≠ ""

theorem regular_ofText {raw : String} (somewhere : (ofText raw).parts ≠ [])
    (root : (rootOf raw).toList = List.replicate kept separator) : Regular (ofText raw) kept where
  root := root
  somewhere := somewhere
  whole part member := ⟨parts_whole part member, fun empty => (mem_parts_iff.mp member).2 (.inl empty)⟩

theorem Regular.piecesOf_text (regular : Regular path kept) :
    piecesOf path.text = List.replicate kept "" ++ path.parts := by
  have parts : pieces ([separator].intercalate (path.parts.map String.toList)) = _ :=
    pieces_intercalate (by simpa using fun part member => (regular.whole part member).1)
      (by simpa using regular.somewhere)
  rw [piecesOf, toList_text (.inr regular.somewhere), regular.root, pieces_replicate, parts]
  simp

-- Such a path starts at the top if its root is more than nothing.
theorem Regular.head_text (regular : Regular path kept) :
    path.text.toList.head? = some separator ↔ kept ≠ 0 := by
  rw [toList_text (.inr regular.somewhere), regular.root]
  cases kept with
  | succ kept => simp [List.replicate_succ]
  | zero =>
    refine iff_of_false ?_ (by simp)
    apply head_intercalate
    · simpa using fun part member => (regular.whole part member).1
    · simpa using fun part member => (regular.whole part member).2

-- The shortest spelling has the same pieces, idle ones aside, and those only in front.
theorem piecesOf_text (raw : String) :
    ∃ front, piecesOf (ofText raw).text = front ++ (ofText raw).parts ∧ ∀ piece ∈ front, Idle piece := by
  obtain ⟨count, rest, split, start, counted⟩ := separators_append raw
  obtain ⟨kept, fewer, none, root⟩ := toList_rootOf counted
  by_cases nowhere : (ofText raw).parts = []
  · by_cases relative : (ofText raw).root = ""
    · refine ⟨["."], ?_, by simp [Idle]⟩
      have dot : (ofText raw).text = "." := by simp [text, relative, nowhere]
      rw [dot, nowhere]
      rfl
    · refine ⟨List.replicate kept "" ++ [""], ?_, ?_⟩
      · rw [piecesOf, toList_text (.inl relative), show (ofText raw).root = rootOf raw from rfl, root, pieces_replicate,
          nowhere]
        simp [pieces]
      · intro piece member
        rcases List.mem_append.mp member with front | last
        · exact .inl (List.eq_of_mem_replicate front)
        · exact .inl (List.mem_singleton.mp last)
  · refine ⟨List.replicate kept "", (regular_ofText nowhere root).piecesOf_text, ?_⟩
    intro piece member
    exact .inl (List.eq_of_mem_replicate member)

theorem text_ne_empty (raw : String) : (ofText raw).text ≠ "" := by
  intro empty
  obtain ⟨front, pieces, idle⟩ := piecesOf_text raw
  have nowhere : (ofText raw).parts = [] := by
    apply List.eq_nil_iff_forall_not_mem.mpr
    intro part member
    have only : part ∈ piecesOf "" := by
      rw [← empty, pieces]
      exact List.mem_append_right front member
    exact (mem_parts_iff.mp member).2 (.inl (List.mem_singleton.mp only))
  unfold text at empty
  by_cases relative : (ofText raw).root = ""
  · simp [relative, nowhere] at empty
  · simp [relative, nowhere] at empty

-- Names and suffixes

theorem parts_eq {path : Path} (somewhere : path.parts ≠ []) : path.parts = path.parts.dropLast ++ [path.name] := by
  rw [name, List.getLast?_eq_some_getLast somewhere]
  exact (List.dropLast_append_getLast somewhere).symm

theorem name_mem {path : Path} (somewhere : path.parts ≠ []) : path.name ∈ path.parts := by
  rw [parts_eq somewhere]
  simp

theorem name_not_idle {raw : String} (somewhere : (ofText raw).parts ≠ []) : ¬Idle (ofText raw).name :=
  (mem_parts_iff.mp (name_mem somewhere)).2

-- A suffix never takes the whole name.
theorem splitName_ne_nil {name : List Char} (filled : name ≠ []) : (splitName name).1 ≠ [] := by
  unfold splitName
  simp only
  split
  · rename_i cut
    simp only [Bool.and_eq_true, decide_eq_true_eq] at cut
    intro nothing
    rcases List.take_eq_nil_iff.mp nothing with zero | empty
    · exact absurd zero (Nat.ne_of_gt cut.1.2)
    · exact filled empty
  · exact filled

theorem stem_ne_empty {raw : String} (somewhere : (ofText raw).parts ≠ []) : (ofText raw).stem ≠ "" := by
  have named : (ofText raw).name.toList ≠ [] := fun empty =>
    name_not_idle somewhere (.inl (String.toList_eq_nil_iff.mp empty))
  intro empty
  apply splitName_ne_nil named
  simpa [stem] using congrArg String.toList empty

theorem splitName_append {stem : List Char} (filled : stem ≠ []) :
    splitName (stem ++ ['.', 'l', 'l']) = (stem, ['.', 'l', 'l']) := by
  have after : ((stem ++ ['.', 'l', 'l']).reverse.takeWhile (· ≠ '.')).length = 2 := by simp
  unfold splitName
  rw [after]
  simp [filled]

theorem mem_stem {path : Path} (member : c ∈ path.stem.toList) : c ∈ path.name.toList := by
  rw [stem, String.toList_ofList] at member
  unfold splitName at member
  simp only at member
  split at member
  · exact List.mem_of_mem_take member
  · exact member

theorem Regular.withSuffix (regular : Regular path kept) {suffix : String} (filled : suffix ≠ "")
    (plain : separator ∉ suffix.toList) : Regular (path.withSuffix suffix) kept where
  root := regular.root
  somewhere := by simp [Path.withSuffix]
  whole := by
    intro part member
    rcases List.mem_append.mp member with before | new
    · exact regular.whole part (List.dropLast_subset _ before)
    · obtain rfl := List.mem_singleton.mp new
      refine ⟨?_, by simp [filled]⟩
      rw [String.toList_append, List.mem_append]
      rintro (inside | inside)
      · exact (regular.whole _ (name_mem regular.somewhere)).1 (mem_stem inside)
      · exact plain inside

-- A path and the path beside it have the same pieces but for the last ones, and start at the same place.
theorem exists_beside {raw : String} (somewhere : (ofText raw).parts ≠ []) :
    ∃ way, piecesOf (ofText raw).text = way ++ [(ofText raw).name] ∧
      piecesOf ((ofText raw).withSuffix ".ll").text = way ++ [(ofText raw).stem ++ ".ll"] ∧
      (((ofText raw).withSuffix ".ll").text.toList.head? = some separator ↔
        (ofText raw).text.toList.head? = some separator) := by
  obtain ⟨_, _, _, _, counted⟩ := separators_append raw
  obtain ⟨kept, -, -, root⟩ := toList_rootOf counted
  have regular := regular_ofText somewhere root
  have beside : Regular ((ofText raw).withSuffix ".ll") kept := regular.withSuffix (by decide) (by decide)
  refine ⟨List.replicate kept "" ++ (ofText raw).parts.dropLast, ?_, ?_, beside.head_text.trans regular.head_text.symm⟩
  · rw [regular.piecesOf_text, List.append_assoc, ← parts_eq somewhere]
  · rw [beside.piecesOf_text, List.append_assoc]
    rfl

theorem suffixed_not_idle (stem : String) : ¬Idle (stem ++ ".ll") ∧ stem ++ ".ll" ≠ ".." := by
  have longer (other : String) (short : other.length < 3) : stem ++ ".ll" ≠ other := by
    intro same
    have length := congrArg String.length same
    rw [String.length_append, show ".ll".length = 3 from rfl] at length
    omega
  exact ⟨not_or.mpr ⟨longer "" (by decide), longer "." (by decide)⟩, longer ".." (by decide)⟩

-- A path stays the same under the suffix of modules exactly if it has that suffix.
theorem withSuffix_eq_self_iff {raw : String} (somewhere : (ofText raw).parts ≠ []) :
    (ofText raw).withSuffix ".ll" = ofText raw ↔ ∃ base, base ≠ "" ∧ (ofText raw).name = base ++ ".ll" := by
  have last := parts_eq somewhere
  constructor
  · intro same
    have parts : (ofText raw).parts.dropLast ++ [(ofText raw).stem ++ ".ll"] = (ofText raw).parts :=
      congrArg Path.parts same
    rw [last, List.dropLast_concat] at parts
    refine ⟨(ofText raw).stem, stem_ne_empty somewhere, ?_⟩
    simpa using parts.symm
  · rintro ⟨base, filled, named⟩
    have cut : (ofText raw).stem = base := by
      rw [stem, named, String.toList_append, show ".ll".toList = ['.', 'l', 'l'] from rfl,
        splitName_append (by simpa using filled), String.ofList_toList]
    rw [withSuffix, cut, ← named, ← last]

end WordC.Path
