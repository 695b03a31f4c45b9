import WordC.Command
import WordC.Proofs.FileSystem
import WordC.Proofs.Session

namespace WordC

namespace Command

variable {execute : Runner → Module → Logged Int} {fs : FileSystem} {given : List Item}

-- A path on the command line that holds a null character.
def HasNull (given : List Item) : Prop :=
  ∃ path, (path ∈ operands given ∨ valueOf given .output = some path) ∧ '\x00' ∈ path.toList

-- A check that leaves the files as they are and is passed where `sound` holds. A path that cannot be looked at is
-- only complained of where there is one.
def Checks (execute : Runner → Module → Logged Int) (fs : FileSystem) (given : List Item)
    (check : Session (Except UsageFault Unit)) (sound : Prop) : Prop :=
  ∃ verdict, check.play execute fs = (verdict, fs) ∧ (verdict = .ok () ↔ sound) ∧
    (verdict = .error .pathUnusable → HasNull given)

theorem checks_ok : Checks execute fs given (.done (.ok ())) True :=
  ⟨.ok (), rfl, by simp, nofun⟩

theorem Checks.iff {check : Session (Except UsageFault Unit)} {sound sound' : Prop}
    (checks : Checks execute fs given check sound) (same : sound ↔ sound') : Checks execute fs given check sound' := by
  rwa [same] at checks

theorem Checks.andThen {check next : Session (Except UsageFault Unit)} {sound later : Prop}
    (first : Checks execute fs given check sound) (second : Checks execute fs given next later) :
    Checks execute fs given
      (check.andThen fun | .error fault => .done (.error fault) | .ok _ => next) (sound ∧ later) := by
  obtain ⟨verdict, played, passed, unusable⟩ := first
  unfold Checks
  rw [Session.play_andThen, played]
  cases verdict with
  | error fault =>
    have failed : ¬sound := fun holds => nomatch passed.mpr holds
    exact ⟨.error fault, rfl, by simp [failed], unusable⟩
  | ok _ =>
    obtain ⟨verdict, played, passed', unusable'⟩ := second
    have held : sound := passed.mp rfl
    exact ⟨verdict, played, by simpa [held] using passed', unusable'⟩

theorem checkOutput_checks {path : String} (set : valueOf given .output = some path) :
    Checks execute fs given (checkOutput path) ('\x00' ∉ path.toList ∧ fs.look path ≠ .ok .directory) := by
  have null : fs.look path = .error .nullCharacter ↔ _ := FileSystem.look_nullCharacter_iff
  unfold Checks checkOutput
  rw [← null]
  simp only [Session.play]
  cases seen : fs.look path with
  | error trouble =>
    cases trouble with
    | nullCharacter => exact ⟨_, rfl, by simp, fun _ => ⟨path, .inr set, null.mp seen⟩⟩
    | _ => exact ⟨_, rfl, by simp, by simp⟩
  | ok sort =>
    cases sort with
    | unreadable => exact absurd seen FileSystem.look_ne_unreadable
    | _ => exact ⟨_, rfl, by simp, by simp⟩

theorem checkInput_checks {path : String} (listed : path ∈ operands given) :
    Checks execute fs given (checkInput path) (fs.look path = .ok .file) := by
  have null : fs.look path = .error .nullCharacter ↔ _ := FileSystem.look_nullCharacter_iff
  unfold Checks checkInput
  simp only [Session.play]
  cases seen : fs.look path with
  | error trouble =>
    cases trouble with
    | nullCharacter => exact ⟨_, rfl, by simp, fun _ => ⟨path, .inl listed, null.mp seen⟩⟩
    | _ => exact ⟨_, rfl, by simp, by simp⟩
  | ok sort => cases sort <;> exact ⟨_, rfl, by simp, by simp⟩

theorem checkRunner_checks (name : String) :
    Checks execute fs given (.done ((runnerOf name).map fun _ => ())) (∃ runner, runnerOf name = .ok runner) := by
  cases named : runnerOf name with
  | ok runner => exact ⟨_, rfl, by simp [Except.map], nofun⟩
  | error fault =>
    obtain ⟨-, -, rfl⟩ := mapError_eq_error.mp named
    exact ⟨_, rfl, by simp [Except.map], nofun⟩

-- What has to hold of the value of a setting.
def Sound (fs : FileSystem) : Setting → String → Prop
  | .output, path => '\x00' ∉ path.toList ∧ fs.look path ≠ .ok .directory
  | .runner, name => ∃ runner, runnerOf name = .ok runner

def Passes (fs : FileSystem) (given : List Item) : Item → Prop
  | .setting setting _ => ∀ value ∈ valueOf given setting, Sound fs setting value
  | _ => True

theorem checkItem_checks (item : Item) : Checks execute fs given (checkItem given item) (Passes fs given item) := by
  match item with
  | .flag _ => exact checks_ok
  | .operand _ => exact checks_ok
  | .setting .output _ =>
    unfold checkItem Passes
    cases set : valueOf given .output with
    | none => exact checks_ok.iff (by simp [set])
    | some path => exact (checkOutput_checks set).iff (by simp [set, Sound])
  | .setting .runner _ =>
    unfold checkItem Passes
    cases set : valueOf given .runner with
    | none => exact checks_ok.iff (by simp [set])
    | some name => exact (checkRunner_checks name).iff (by simp [set, Sound])

theorem checkItems_checks (rest : List Item) :
    Checks execute fs given (checkItems given rest)
      ((∀ item ∈ rest, Passes fs given item) ∧ ∃ path ∈ (operands given).head?, fs.look path = .ok .file) := by
  induction rest with
  | nil =>
    unfold checkItems
    cases listed : operands given with
    | nil => exact ⟨_, rfl, by simp, nofun⟩
    | cons path more => simpa [listed] using checkInput_checks (by simp [listed])
  | cons item rest ih =>
    unfold checkItems
    exact ((checkItem_checks item).andThen ih).iff (by simp [and_assoc])

theorem mem_of_valueOf {setting : Setting} (set : valueOf given setting = some value) :
    Item.setting setting value ∈ given := by
  obtain ⟨item, member, found⟩ := List.exists_of_findSome?_eq_some set
  split at found
  · rename_i other worth
    split_ifs at found with same
    cases found
    exact List.mem_reverse.mp (same ▸ member)
  · cases found

theorem forall_passes_iff :
    (∀ item ∈ given, Passes fs given item) ↔ ∀ setting, ∀ value ∈ valueOf given setting, Sound fs setting value := by
  constructor
  · intro passes setting value set
    exact passes _ (mem_of_valueOf set) value set
  · intro sound item member
    cases item with
    | setting setting _ => exact sound setting
    | _ => trivial

-- One operand makes the request, with the values and flags that stand beside it.
theorem request_eq_ok_iff :
    request given = .ok r ↔ ∃ path runner, operands given = [path] ∧
      ((valueOf given .runner).map runnerOf).getD (.ok .jit) = .ok runner ∧
      r = ⟨Path.ofText path, (valueOf given .output).map Path.ofText, runner, hasFlag given .tokens,
        hasFlag given .outline, hasFlag given .run, !hasFlag given .noVerify, hasFlag given .verbose⟩ := by
  unfold request
  cases operands given with
  | nil => simp
  | cons path rest =>
    cases rest with
    | nil =>
      simp only [bind_eq_ok, pure, Except.pure, Except.ok.injEq, List.cons.injEq, and_true]
      constructor
      · rintro ⟨runner, named, rfl⟩
        exact ⟨path, runner, rfl, named, rfl⟩
      · rintro ⟨_, runner, rfl, named, rfl⟩
        exact ⟨runner, named, rfl⟩
    | cons extra more => simp

theorem runnerOf_ne_pathUnusable (name : String) : runnerOf name ≠ .error .pathUnusable := by
  intro unnamed
  obtain ⟨_, _, other⟩ := mapError_eq_error.mp unnamed
  cases other

theorem request_ne_pathUnusable (refused : request given = .error fault) : fault ≠ .pathUnusable := by
  rintro rfl
  unfold request at refused
  split at refused
  · cases refused
  · rcases bind_eq_error.mp refused with unnamed | ⟨_, _, impossible⟩
    · cases set : valueOf given .runner with
      | none => simp [set] at unnamed
      | some name =>
        rw [set] at unnamed
        exact runnerOf_ne_pathUnusable name unnamed
    · cases impossible
  · cases refused

-- The items of a command line that asks for work, with the request they make and the checks passed.
structure Admitted (fs : FileSystem) (given : List Item) (r : Request) : Prop where
  unanswered : given.findSome? immediate = none
  input : ∀ path ∈ operands given, fs.look path = .ok .file
  output : ∀ path ∈ valueOf given .output, '\x00' ∉ path.toList ∧ fs.look path ≠ .ok .directory
  requested : request given = .ok r

theorem admitted_iff :
    Admitted fs given r ↔ given.findSome? immediate = none ∧
      ((∀ item ∈ given, Passes fs given item) ∧ ∃ path ∈ (operands given).head?, fs.look path = .ok .file) ∧
      request given = .ok r := by
  rw [forall_passes_iff]
  constructor
  · rintro ⟨unanswered, input, output, requested⟩
    obtain ⟨path, runner, listed, named, -⟩ := request_eq_ok_iff.mp requested
    refine ⟨unanswered, ⟨?_, path, by simp [listed], input path (by simp [listed])⟩, requested⟩
    intro setting value set
    cases setting with
    | output => exact output value set
    | runner =>
      rw [set] at named
      exact ⟨runner, named⟩
  · rintro ⟨unanswered, ⟨sound, path, first, seen⟩, requested⟩
    obtain ⟨only, -, listed, -⟩ := request_eq_ok_iff.mp requested
    have same : path = only := by simpa [listed] using first.symm
    refine ⟨unanswered, ?_, sound .output, requested⟩
    simpa [listed, same] using seen

-- Requests are carried out once the checks are passed.
theorem play_session_admitted (read : items arguments = .ok given) (admitted : Admitted fs given r) :
    (session backend arguments).play execute fs = (r.perform backend).play execute fs := by
  obtain ⟨unanswered, passed, requested⟩ := admitted_iff.mp admitted
  have checked : Checks execute fs given (checkItems given given) _ := checkItems_checks given
  obtain ⟨verdict, played, sound, -⟩ := checked
  simp only [session, read, unanswered, Session.play_andThen, played, sound.mpr passed, requested]

-- Anything else is refused, and the files are left as they are.
theorem play_session_refused (read : items arguments = .ok given) (unanswered : given.findSome? immediate = none)
    (refused : ∀ r, ¬Admitted fs given r) :
    ∃ fault : UsageFault, (session backend arguments).play execute fs = (fault.report, fs) ∧
      (fault = .pathUnusable → HasNull given) := by
  have checked : Checks execute fs given (checkItems given given) _ := checkItems_checks given
  obtain ⟨verdict, played, sound, unusable⟩ := checked
  simp only [session, read, unanswered, Session.play_andThen, played]
  cases verdict with
  | error fault => exact ⟨fault, rfl, fun same => unusable (same ▸ rfl)⟩
  | ok _ =>
    cases requested : request given with
    | ok r => exact absurd (admitted_iff.mpr ⟨unanswered, sound.mp rfl, requested⟩) (refused r)
    | error fault =>
      exact ⟨fault, rfl, fun unusable => absurd unusable (request_ne_pathUnusable requested)⟩

end Command

end WordC
