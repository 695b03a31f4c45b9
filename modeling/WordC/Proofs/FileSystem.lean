import WordC.FileSystem
import WordC.Proofs.Except
import WordC.Proofs.Path

namespace WordC.FileSystem

variable {fs : FileSystem} {place there : Place}

-- Following pieces

theorem isDirectory_of_follow (followed : fs.follow place (piece :: rest) = .ok there) :
    fs.isDirectory place = true := by
  unfold follow at followed
  split at followed
  · cases followed
  · rename_i checked
    simpa using checked

theorem follow_idle (idle : Path.Idle piece) (directory : fs.isDirectory place = true) (rest : List String) :
    fs.follow place (piece :: rest) = fs.follow place rest := by
  rcases idle with rfl | rfl <;> simp [follow, directory]

theorem follow_front (idle : ∀ piece ∈ front, Path.Idle piece) (directory : fs.isDirectory place = true)
    (rest : List String) : fs.follow place (front ++ rest) = fs.follow place rest := by
  induction front with
  | nil => rfl
  | cons piece front ih =>
    obtain ⟨here, later⟩ := List.forall_mem_cons.mp idle
    rw [List.cons_append, follow_idle here directory, ih later]

theorem follow_append (place : Place) (front rest : List String) :
    fs.follow place (front ++ rest) = fs.follow place front >>= fun reached => fs.follow reached rest := by
  induction front generalizing place with
  | nil => rfl
  | cons piece front ih =>
    rw [List.cons_append, follow, follow]
    split_ifs
    all_goals first | rfl | exact ih _

-- Idle pieces can be left out.
theorem follow_filter (followed : fs.follow place pieces = .ok there) :
    fs.follow place (pieces.filter fun piece => piece ≠ "" && piece ≠ ".") = .ok there := by
  induction pieces generalizing place with
  | nil => exact followed
  | cons piece rest ih =>
    have directory := isDirectory_of_follow followed
    by_cases idle : Path.Idle piece
    · rw [follow_idle idle directory] at followed
      rw [List.filter_cons_of_neg (by rcases idle with rfl | rfl <;> simp)]
      exact ih followed
    · have kept : (piece ≠ "" && piece ≠ ".") = true := by simpa [Path.Idle, not_or] using idle
      rw [List.filter_cons, if_pos kept]
      rw [follow] at followed ⊢
      split_ifs at followed ⊢
      all_goals exact ih followed

-- A way that ends early ends at one of its pieces.
theorem follow_eq_error_iff {start : Place} {trouble : FileTrouble} :
    fs.follow start pieces = .error trouble ↔ ∃ front piece rest place, pieces = front ++ piece :: rest ∧
      fs.follow start front = .ok place ∧ fs.follow place [piece] = .error trouble := by
  constructor
  · intro failed
    induction pieces generalizing start with
    | nil => cases failed
    | cons piece rest ih =>
      rw [← List.singleton_append, follow_append, bind_eq_error] at failed
      rcases failed with here | ⟨next, passed, later⟩
      · exact ⟨[], piece, rest, start, rfl, rfl, here⟩
      · obtain ⟨front, stop, more, place, rfl, reached, here⟩ := ih later
        refine ⟨piece :: front, stop, more, place, rfl, ?_, here⟩
        rw [← List.singleton_append, follow_append, passed]
        exact reached
  · rintro ⟨front, piece, rest, place, rfl, reached, here⟩
    have here' : fs.follow place ([piece] ++ rest) = .error trouble := by
      rw [follow_append, here]
      rfl
    rw [follow_append, reached]
    exact here'

-- What a single piece can stop at.
theorem follow_piece_error {piece : String} {trouble : FileTrouble}
    (stopped : fs.follow place [piece] = .error trouble) :
    (trouble = .notDirectory ∧ fs.isDirectory place = false) ∨
    (fs.isDirectory place = true ∧ ¬Path.Idle piece ∧ piece ≠ ".." ∧
      ((trouble = .nameTooLong ∧ longestName < piece.utf8ByteSize) ∨
        (trouble = .notFound ∧ piece.utf8ByteSize ≤ longestName ∧ fs.entry? (place ++ [piece]) = none))) := by
  simp only [follow] at stopped
  split_ifs at stopped with directory idle up long absent
  · cases stopped
    exact .inl ⟨rfl, by simpa using directory⟩
  · cases stopped
    exact .inr ⟨by simpa using directory, by simpa [Path.Idle] using idle, up, .inl ⟨rfl, long⟩⟩
  · cases stopped
    exact .inr ⟨by simpa using directory, by simpa [Path.Idle] using idle, up,
      .inr ⟨rfl, Nat.le_of_not_lt long, by simpa using absent⟩⟩

theorem follow_missing {piece : String} (missing : fs.follow place [piece] = .error .notFound) :
    fs.isDirectory place = true ∧ ¬Path.Idle piece ∧ piece ≠ ".." ∧ piece.utf8ByteSize ≤ longestName ∧
      fs.entry? (place ++ [piece]) = none := by
  rcases follow_piece_error missing with ⟨other, -⟩ | ⟨directory, named, up, ⟨other, -⟩ | ⟨-, short, absent⟩⟩
  · cases other
  · cases other
  · exact ⟨directory, named, up, short, absent⟩

-- The texts that a file can be looked for under.
structure Speakable (path : String) : Prop where
  plain : '\x00' ∉ path.toList
  filled : path ≠ ""
  short : path.utf8ByteSize ≤ longestPath

theorem locate_eq (speakable : Speakable path) :
    fs.locate path = fs.follow (fs.origin path) (Path.piecesOf path) := by
  obtain ⟨plain, filled, short⟩ := speakable
  unfold locate
  rw [if_neg (by simpa using plain), if_neg (by simpa using filled), if_neg (Nat.not_lt.mpr short)]

theorem locate_eq_ok_iff {path : String} :
    fs.locate path = .ok place ↔ Speakable path ∧ fs.follow (fs.origin path) (Path.piecesOf path) = .ok place := by
  constructor
  · intro located
    have speakable : Speakable path := by
      unfold locate at located
      split_ifs at located with null empty long
      exact ⟨by simpa using null, by simpa using empty, Nat.le_of_not_lt long⟩
    exact ⟨speakable, by rwa [locate_eq speakable] at located⟩
  · rintro ⟨speakable, followed⟩
    rwa [locate_eq speakable]

theorem locate_error {path : String} {trouble : FileTrouble} (failed : fs.locate path = .error trouble) :
    (trouble = .nullCharacter ∧ '\x00' ∈ path.toList) ∨ (trouble = .notFound ∧ path = "") ∨
    (trouble = .nameTooLong ∧ '\x00' ∉ path.toList ∧ longestPath < path.utf8ByteSize) ∨
    (Speakable path ∧ fs.follow (fs.origin path) (Path.piecesOf path) = .error trouble) := by
  unfold locate at failed
  split_ifs at failed with null empty long
  · cases failed
    exact .inl ⟨rfl, by simpa using null⟩
  · cases failed
    exact .inr (.inl ⟨rfl, String.isEmpty_iff.mp empty⟩)
  · cases failed
    exact .inr (.inr (.inl ⟨rfl, by simpa using null, long⟩))
  · exact .inr (.inr (.inr ⟨⟨by simpa using null, by simpa using empty, Nat.le_of_not_lt long⟩, failed⟩))

-- A path that runs through something that is no directory.
def Obstructed (fs : FileSystem) (path : String) : Prop :=
  Speakable path ∧ ∃ front piece rest place, Path.piecesOf path = front ++ piece :: rest ∧
    fs.follow (fs.origin path) front = .ok place ∧ fs.isDirectory place = false

-- A path that is too long, or that comes to a name that is too long for a directory.
def Overlong (fs : FileSystem) (path : String) : Prop :=
  ('\x00' ∉ path.toList ∧ longestPath < path.utf8ByteSize) ∨
  (Speakable path ∧ ∃ front name rest place, Path.piecesOf path = front ++ name :: rest ∧
    fs.follow (fs.origin path) front = .ok place ∧ fs.isDirectory place = true ∧ longestName < name.utf8ByteSize)

theorem follow_notDirectory_iff {piece : String} :
    fs.follow place [piece] = .error .notDirectory ↔ fs.isDirectory place = false := by
  constructor
  · intro stopped
    rcases follow_piece_error stopped with ⟨-, free⟩ | ⟨-, -, -, ⟨other, -⟩ | ⟨other, -⟩⟩
    · exact free
    · cases other
    · cases other
  · intro free
    simp [follow, free]

theorem follow_nameTooLong_iff {piece : String} :
    fs.follow place [piece] = .error .nameTooLong ↔
      fs.isDirectory place = true ∧ longestName < piece.utf8ByteSize := by
  constructor
  · intro stopped
    rcases follow_piece_error stopped with ⟨other, -⟩ | ⟨directory, -, -, ⟨-, long⟩ | ⟨other, -⟩⟩
    · cases other
    · exact ⟨directory, long⟩
    · cases other
  · rintro ⟨directory, long⟩
    have other (short : String) (small : short.utf8ByteSize ≤ longestName) : piece ≠ short := by
      rintro rfl
      omega
    simp [follow, directory, long, other "" (by decide), other "." (by decide), other ".." (by decide)]

theorem locate_notDirectory_iff {path : String} : fs.locate path = .error .notDirectory ↔ Obstructed fs path := by
  have stops : fs.follow (fs.origin path) (Path.piecesOf path) = .error .notDirectory ↔ _ := follow_eq_error_iff
  simp only [follow_notDirectory_iff] at stops
  rw [Obstructed, ← stops]
  constructor
  · intro failed
    rcases locate_error failed with ⟨other, -⟩ | ⟨other, -⟩ | ⟨other, -⟩ | stopped
    · cases other
    · cases other
    · cases other
    · exact stopped
  · rintro ⟨speakable, stopped⟩
    rwa [locate_eq speakable]

theorem locate_nameTooLong_iff {path : String} : fs.locate path = .error .nameTooLong ↔ Overlong fs path := by
  have stops : fs.follow (fs.origin path) (Path.piecesOf path) = .error .nameTooLong ↔ _ := follow_eq_error_iff
  simp only [follow_nameTooLong_iff] at stops
  rw [Overlong, ← stops]
  constructor
  · intro failed
    rcases locate_error failed with ⟨other, -⟩ | ⟨other, -⟩ | ⟨-, long⟩ | stopped
    · cases other
    · cases other
    · exact .inl long
    · exact .inr stopped
  · rintro (⟨plain, long⟩ | ⟨speakable, stopped⟩)
    · have filled : path ≠ "" := by
        rintro rfl
        exact absurd long (by decide)
      simp [locate, plain, filled, long]
    · rwa [locate_eq speakable]

theorem locate_nullCharacter_iff {path : String} : fs.locate path = .error .nullCharacter ↔ '\x00' ∈ path.toList := by
  constructor
  · intro failed
    rcases locate_error failed with ⟨-, null⟩ | ⟨other, -⟩ | ⟨other, -⟩ | ⟨-, stopped⟩
    · exact null
    · cases other
    · cases other
    · obtain ⟨-, piece, -, place, -, -, here⟩ := follow_eq_error_iff.mp stopped
      rcases follow_piece_error here with ⟨other, -⟩ | ⟨-, -, -, ⟨other, -⟩ | ⟨other, -⟩⟩ <;> cases other
  · intro null
    simp [locate, null]

-- A path leads to the same place in its shortest spelling.
theorem locate_text {raw : String} (located : fs.locate raw = .ok place) :
    fs.locate (Path.ofText raw).text = .ok place := by
  obtain ⟨⟨plain, filled, short⟩, followed⟩ := locate_eq_ok_iff.mp located
  have shorter := Path.text_sublist filled
  obtain ⟨front, pieces, idle⟩ := Path.piecesOf_text raw
  have origin : fs.origin (Path.ofText raw).text = fs.origin raw := by
    unfold FileSystem.origin
    simp only [Path.head_text]
  have directory : fs.isDirectory (fs.origin raw) = true := by
    cases split : Path.piecesOf raw with
    | nil => exact absurd (List.map_eq_nil_iff.mp split) (Path.pieces_ne_nil _)
    | cons piece rest => exact isDirectory_of_follow (split ▸ followed)
  refine locate_eq_ok_iff.mpr ⟨⟨fun there => plain (shorter.subset there), Path.text_ne_empty raw, ?_⟩, ?_⟩
  · exact (Path.utf8ByteSize_text_le filled).trans short
  · rw [origin, pieces, follow_front idle directory]
    exact follow_filter followed

theorem look_eq_file_iff {path : String} :
    fs.look path = .ok .file ↔
      ∃ place content, fs.locate path = .ok place ∧ fs.entry? place = some (.file content) := by
  unfold look
  cases fs.locate path with
  | error trouble => simp
  | ok place =>
    cases held : fs.entry? place with
    | none => simp [held]
    | some entry => cases entry <;> simp [held, Entry.sort]

theorem look_ne_unreadable {path : String} : fs.look path ≠ .ok .unreadable := by
  intro seen
  unfold look at seen
  split at seen
  · cases seen
  · split at seen
    · cases seen
    · rename_i entry _
      cases entry <;> cases seen

theorem look_nullCharacter_iff {path : String} : fs.look path = .error .nullCharacter ↔ '\x00' ∈ path.toList := by
  have null : fs.locate path = .error .nullCharacter ↔ _ := locate_nullCharacter_iff
  rw [← null]
  unfold look
  cases fs.locate path with
  | error trouble => simp
  | ok place => cases held : fs.entry? place <;> simp [held]

-- A file that was seen under a path can be read under its shortest spelling.
theorem exists_read_of_look {raw : String} (seen : fs.look raw = .ok .file) :
    ∃ content, fs.read (Path.ofText raw).text = .ok content := by
  obtain ⟨place, content, located, held⟩ := look_eq_file_iff.mp seen
  refine ⟨content, ?_⟩
  unfold FileSystem.read
  rw [locate_text located]
  simp only [held]

-- What can be read has a name.
theorem parts_ne_nil_of_read {raw : String} (held : fs.read (Path.ofText raw).text = .ok content) :
    (Path.ofText raw).parts ≠ [] := by
  intro nowhere
  unfold FileSystem.read at held
  split at held
  · cases held
  · rename_i place located
    obtain ⟨-, followed⟩ := locate_eq_ok_iff.mp located
    obtain ⟨front, pieces, idle⟩ := Path.piecesOf_text raw
    rw [pieces, nowhere] at followed
    have directory : fs.isDirectory (fs.origin (Path.ofText raw).text) = true := by
      cases front with
      | nil => exact absurd (List.map_eq_nil_iff.mp (nowhere ▸ pieces)) (Path.pieces_ne_nil _)
      | cons piece rest => exact isDirectory_of_follow followed
    rw [follow_front idle directory] at followed
    cases followed
    unfold FileSystem.isDirectory at directory
    simp [of_decide_eq_true directory] at held

-- Writing

-- The file system with a file at a place.
def put (fs : FileSystem) (place : Place) (content : List UInt8) : FileSystem :=
  { fs with entries := fs.entries.bind place (.file content) }

theorem entry?_put (filled : place ≠ []) (content : List UInt8) :
    FileSystem.entry? (fs.put place content) place = some (.file content) := by
  unfold entry?
  simp [put, filled]

theorem entry?_put_other (content : List UInt8) (apart : there ≠ place) :
    FileSystem.entry? (fs.put place content) there = fs.entry? there := by
  unfold entry?
  simp [put, Bindings.lookup_bind_other _ _ apart]

theorem origin_put (path : String) : (fs.put place content).origin path = fs.origin path := rfl

-- What a directory holds under a name stays a directory or none.
theorem isDirectory_put (filled : place ≠ []) (free : fs.isDirectory place = false) (content : List UInt8)
    (there : Place) : (fs.put place content).isDirectory there = fs.isDirectory there := by
  by_cases same : there = place
  · subst same
    rw [free, FileSystem.isDirectory, entry?_put filled]
    rfl
  · rw [FileSystem.isDirectory, entry?_put_other content same, FileSystem.isDirectory]

-- A path that leads somewhere still leads there.
theorem follow_put (filled : place ≠ []) (free : fs.isDirectory place = false) (content : List UInt8)
    {start : Place} (followed : fs.follow start pieces = .ok there) :
    (fs.put place content).follow start pieces = .ok there := by
  induction pieces generalizing start with
  | nil => exact followed
  | cons piece rest ih =>
    rw [follow] at followed ⊢
    rw [isDirectory_put filled free]
    split_ifs at followed ⊢ with directory idle up long absent held
    · exact ih followed
    · exact ih followed
    · by_cases here : start ++ [piece] = place
      · simp [here, entry?_put filled] at absent
      · exact absurd (by rwa [entry?_put_other content here] at absent) held
    · exact ih followed

theorem follow_put_name {name : String} (missing : fs.follow place [name] = .error .notFound) (content : List UInt8) :
    (fs.put (place ++ [name]) content).follow place [name] = .ok (place ++ [name]) := by
  obtain ⟨directory, named, up, short, absent⟩ := follow_missing missing
  have filled : place ++ [name] ≠ [] := List.append_ne_nil_of_right_ne_nil _ (List.cons_ne_nil _ _)
  have free : fs.isDirectory (place ++ [name]) = false := by simp [FileSystem.isDirectory, absent]
  have stays : (fs.put (place ++ [name]) content).isDirectory place = true := by
    rw [isDirectory_put filled free, directory]
  obtain ⟨blank, dot⟩ := not_or.mp named
  simp [follow, stays, blank, dot, up, Nat.not_lt.mpr short, entry?_put filled]

-- A file is written over another one, or under a new name in a directory.
theorem locateForWriting_ok {path : String} (located : fs.locateForWriting path = .ok place) :
    (fs.locate path = .ok place ∧ fs.isDirectory place = false) ∨
    (Speakable path ∧ ∃ front name directory, Path.piecesOf path = front ++ [name] ∧ place = directory ++ [name] ∧
      fs.follow (fs.origin path) front = .ok directory ∧ fs.follow directory [name] = .error .notFound) := by
  unfold locateForWriting at located
  split at located
  · rename_i there found
    split_ifs at located with directory
    cases located
    exact .inl ⟨found, by simpa using directory⟩
  · rename_i missing
    simp only at located
    split at located
    · rename_i directory name front last
      split_ifs at located with named
      cases located
      have pieces : Path.piecesOf path = (Path.piecesOf path).dropLast ++ [name] :=
        (List.dropLast_append_getLast? name last).symm
      have speakable : Speakable path := by
        unfold locate at missing
        split_ifs at missing with null empty long
        · cases missing
        · rw [String.isEmpty_iff.mp empty] at last
          exact absurd (by simpa [Path.piecesOf, Path.pieces] using last.symm) named
        · cases missing
        · exact ⟨by simpa using null, by simpa using empty, Nat.le_of_not_lt long⟩
      rw [locate_eq speakable, pieces, follow_append, front] at missing
      exact .inr ⟨speakable, _, name, directory, pieces, rfl, front, missing⟩
    · cases located
  · cases located

-- Only what is missing need not be there.
theorem locateForWriting_error_iff {path : String} {trouble : FileTrouble} (missing : trouble ≠ .notFound)
    (directory : trouble ≠ .isDirectory) :
    fs.locateForWriting path = .error trouble ↔ fs.locate path = .error trouble := by
  unfold locateForWriting
  cases fs.locate path with
  | ok place =>
    simp only [reduceCtorEq, iff_false]
    split_ifs
    · simpa using Ne.symm directory
    · simp
  | error other =>
    cases other with
    | notFound =>
      simp only
      split
      · split <;> simp [Ne.symm missing]
      · simp [Ne.symm missing]
    | _ => rfl

theorem locateForWriting_free {path : String} (located : fs.locateForWriting path = .ok place) :
    place ≠ [] ∧ fs.isDirectory place = false := by
  rcases locateForWriting_ok located with ⟨-, free⟩ | ⟨-, -, name, directory, -, rfl, -, missing⟩
  · refine ⟨?_, free⟩
    rintro rfl
    cases free
  · obtain ⟨-, -, -, -, absent⟩ := follow_missing missing
    exact ⟨List.append_ne_nil_of_right_ne_nil _ (List.cons_ne_nil _ _), by simp [FileSystem.isDirectory, absent]⟩

theorem write_eq {path : String} (located : fs.locateForWriting path = .ok place) (content : List UInt8) :
    fs.write path content = .ok (fs.put place content) := by
  simp only [FileSystem.write, located, put]

-- The path of a file that is written leads to it from then on.
theorem locate_put {path : String} (located : fs.locateForWriting path = .ok place) (content : List UInt8) :
    (fs.put place content).locate path = .ok place := by
  obtain ⟨filled, free⟩ := locateForWriting_free located
  rcases locateForWriting_ok located with
    ⟨found, -⟩ | ⟨speakable, front, name, directory, pieces, rfl, reached, missing⟩
  · obtain ⟨speakable, followed⟩ := locate_eq_ok_iff.mp found
    exact locate_eq_ok_iff.mpr ⟨speakable, follow_put filled free content followed⟩
  · have last := follow_put_name missing content
    refine locate_eq_ok_iff.mpr ⟨speakable, ?_⟩
    rw [pieces, follow_append, origin_put, follow_put filled free content reached]
    exact last

theorem read_put {path : String} (located : fs.locateForWriting path = .ok place) (content : List UInt8) :
    (fs.put place content).read path = .ok content := by
  unfold FileSystem.read
  rw [locate_put located]
  simp only [entry?_put (locateForWriting_free located).1]

-- What the last piece of a path adds to the place that the others lead to.
theorem follow_last {name : String} (named : ¬Path.Idle name) (followed : fs.follow place [name] = .ok there) :
    there = place ++ [name] ∨ name = ".." ∧ there = place.dropLast := by
  simp only [follow] at followed
  split_ifs at followed with directory idle up long absent
  · exact absurd (by simpa [Path.Idle] using idle) named
  · cases followed
    exact .inr ⟨up, rfl⟩
  · cases followed
    exact .inl rfl

theorem locate_last {path : String} (pieces : Path.piecesOf path = way ++ [name]) (named : ¬Path.Idle name)
    (located : fs.locate path = .ok there) :
    ∃ directory, fs.follow (fs.origin path) way = .ok directory ∧
      (there = directory ++ [name] ∨ name = ".." ∧ there = directory.dropLast) := by
  obtain ⟨-, followed⟩ := locate_eq_ok_iff.mp located
  rw [pieces, follow_append] at followed
  obtain ⟨directory, reached, last⟩ := bind_eq_ok.mp followed
  exact ⟨directory, reached, follow_last named last⟩

theorem locateForWriting_last {path : String} (pieces : Path.piecesOf path = way ++ [name])
    (named : ¬Path.Idle name) (up : name ≠ "..") (located : fs.locateForWriting path = .ok there) :
    ∃ directory, fs.follow (fs.origin path) way = .ok directory ∧ there = directory ++ [name] := by
  rcases locateForWriting_ok located with ⟨found, -⟩ | ⟨-, front, new, directory, split, rfl, reached, -⟩
  · obtain ⟨directory, reached, last | ⟨back, -⟩⟩ := locate_last pieces named found
    · exact ⟨directory, reached, last⟩
    · exact absurd back up
  · rw [pieces] at split
    obtain ⟨rfl, same⟩ := List.append_inj' split rfl
    cases same
    exact ⟨directory, reached, rfl⟩

-- Two paths that differ in their last names lead to two places.
theorem places_apart {path target : String} (pieces : Path.piecesOf path = way ++ [name])
    (pieces' : Path.piecesOf target = way ++ [name']) (origin : fs.origin target = fs.origin path)
    (named : ¬Path.Idle name) (named' : ¬Path.Idle name') (up : name' ≠ "..") (other : name ≠ name')
    (located : fs.locate path = .ok place) (located' : fs.locateForWriting target = .ok there) : place ≠ there := by
  obtain ⟨directory, reached, last⟩ := locate_last pieces named located
  obtain ⟨directory', reached', rfl⟩ := locateForWriting_last pieces' named' up located'
  rw [origin, reached] at reached'
  cases reached'
  rcases last with rfl | ⟨-, rfl⟩
  · simpa using other
  · intro same
    have length := congrArg List.length same
    simp only [List.length_dropLast, List.length_append, List.length_singleton] at length
    omega

theorem read_put_other {path : String} (located : fs.locate path = .ok there) (apart : there ≠ place)
    (filled : place ≠ []) (free : fs.isDirectory place = false) (content : List UInt8) :
    (fs.put place content).read path = fs.read path := by
  obtain ⟨speakable, followed⟩ := locate_eq_ok_iff.mp located
  have still : (fs.put place content).locate path = .ok there :=
    locate_eq_ok_iff.mpr ⟨speakable, follow_put filled free content followed⟩
  unfold FileSystem.read
  rw [still, located]
  simp only [entry?_put_other content apart]

-- A file system that differs from an earlier one in one file, which can be read under the given path.
structure Written (before : FileSystem) (path : String) (content : List UInt8) (after : FileSystem) : Prop where
  stored : after.read path = .ok content
  others : ∃ place, before.locateForWriting path = .ok place ∧ after.locate path = .ok place ∧
    ∀ other, other ≠ place → after.entry? other = before.entry? other
  origins : ∀ other, after.origin other = before.origin other

theorem written_put {path : String} (located : fs.locateForWriting path = .ok place) (content : List UInt8) :
    Written fs path content (fs.put place content) where
  stored := read_put located content
  others := ⟨place, located, locate_put located content, fun _ apart => entry?_put_other content apart⟩
  origins := origin_put

end WordC.FileSystem
