import WordC.Proofs.Command.Course

namespace WordC

-- What a path is in the way of is taken for a fault of the command itself if it is met as the path of an output.
theorem FileSystem.internal_iff {fs : FileSystem} {path : String} :
    (∃ trouble, fs.locateForWriting path = .error trouble ∧ (trouble.answer path).isListed = false) ↔
      fs.Obstructed path ∨ fs.Overlong path := by
  rw [← FileSystem.locate_notDirectory_iff, ← FileSystem.locate_nameTooLong_iff,
    ← FileSystem.locateForWriting_error_iff (by decide) (by decide),
    ← FileSystem.locateForWriting_error_iff (by decide) (by decide)]
  constructor
  · rintro ⟨trouble, blocked, unlisted⟩
    cases trouble with
    | notDirectory => exact .inl blocked
    | nameTooLong => exact .inr blocked
    | _ => cases unlisted
  · rintro (blocked | blocked)
    · exact ⟨_, blocked, rfl⟩
    · exact ⟨_, blocked, rfl⟩

namespace Command

variable {backend : Backend} {execute : Runner → Module → Logged Int} {fs : FileSystem} {given : List Item}
  {r : Request}

theorem Admitted.readable (admitted : Admitted fs given r) : ∃ bytes, fs.read r.input.text = .ok bytes := by
  obtain ⟨path, runner, listed, -, rfl⟩ := request_eq_ok_iff.mp admitted.requested
  exact FileSystem.exists_read_of_look (admitted.input path (by simp [listed]))

section

variable {text : String} {failure : Failure} {made : Compiled}

theorem exit_undecodable (stored : fs.read r.input.text = .ok bytes) (undecodable : sourceText bytes = .error failure) :
    ((r.perform backend).play execute fs).1.exit = 2 := by
  simp only [Request.perform, Session.play, stored, undecodable, Except.mapError]
  rw [Request.failed_exit, undecodable_exit undecodable]

theorem exit_refused (source : Source fs r text) (failed : r.stages backend text = .error failure) :
    ((r.perform backend).play execute fs).1.exit = (failure.complaint none).exit := by
  obtain ⟨log, process⟩ := Request.process_failed failed
  rw [play_perform source, process]
  exact Request.failed_exit _ log failure

theorem exit_dumped (source : Source fs r text) (dumped : r.stages backend text = .ok none) :
    ((r.perform backend).play execute fs).1.exit = 0 := by
  obtain ⟨shown, log, process⟩ := Request.process_dumped dumped
  rw [play_perform source, process]
  rfl

theorem exit_written (still : r.run = false) (source : Source fs r text)
    (compiled : r.stages backend text = .ok (some made)) (wanted : r.target = some path)
    (placed : fs.locateForWriting path.text = .ok place) :
    ((r.perform backend).play execute fs).1.exit = 0 := by
  obtain ⟨log, process⟩ := Request.process_compiled compiled
  rw [play_perform source, process, Request.play_deliver_written log wanted placed, Request.play_finish, still]
  rfl

theorem exit_unwritable (source : Source fs r text) (compiled : r.stages backend text = .ok (some made))
    (wanted : r.target = some path) (blocked : fs.locateForWriting path.text = .error trouble) :
    ((r.perform backend).play execute fs).1.exit = (trouble.answer path.text).status := by
  obtain ⟨log, process⟩ := Request.process_compiled compiled
  rw [play_perform source, process, Request.play_deliver_blocked log wanted blocked]
  exact Request.failed_file_exit _ log _

-- Only what is in the way of the output path is left over for the status of an internal fault.
theorem exit_internal (admitted : Admitted fs given r) (still : r.run = false)
    (exit : ((r.perform backend).play execute fs).1.exit = 3) :
    ∃ text made path, Source fs r text ∧ r.stages backend text = .ok (some made) ∧ r.target = some path ∧
      (fs.Obstructed path.text ∨ fs.Overlong path.text) := by
  obtain ⟨bytes, stored⟩ := admitted.readable
  obtain ⟨path, wanted⟩ := Request.exists_target still
  cases decoded : sourceText bytes with
  | error failure => simp [exit_undecodable stored decoded] at exit
  | ok text =>
    have source : Source fs r text := ⟨bytes, stored, decoded⟩
    cases staged : r.stages backend text with
    | error failure =>
      rw [exit_refused source staged] at exit
      cases Request.stages_textual staged <;> cases exit
    | ok made =>
      cases made with
      | none => simp [exit_dumped source staged] at exit
      | some made =>
        refine ⟨text, made, path, source, staged, wanted, FileSystem.internal_iff.mp ?_⟩
        cases blocked : fs.locateForWriting path.text with
        | ok place => simp [exit_written still source staged wanted blocked] at exit
        | error trouble =>
          rw [exit_unwritable source staged wanted blocked] at exit
          exact ⟨trouble, rfl, Trouble.status_eq_internal.mp exit⟩

end

-- The exit status of work that runs nothing. It blames the text with 1, or with 2 if it is unreadable, and the paths
-- with 2, but for an output path that runs through a file or comes to a name that is too long.
structure ExitsBy (backend : Backend) (fs : FileSystem) (r : Request) (exit : Nat) : Prop where
  undecodable : ∀ bytes failure, fs.read r.input.text = .ok bytes → sourceText bytes = .error failure → exit = 2
  refused : ∀ text failure, Source fs r text → r.stages backend text = .error failure →
    (∃ d, failure = .diagnostic d ∧ exit = 1) ∨ ∃ length, failure = .overlongDigitRun length ∧ exit = 2
  dumped : ∀ text, Source fs r text → r.stages backend text = .ok none → exit = 0
  written : ∀ text made path place, Source fs r text → r.stages backend text = .ok (some made) → r.target = some path →
    fs.locateForWriting path.text = .ok place → exit = 0
  unwritable : ∀ text made path trouble, Source fs r text → r.stages backend text = .ok (some made) →
    r.target = some path → fs.locateForWriting path.text = .error trouble →
    trouble ≠ .notDirectory → trouble ≠ .nameTooLong → exit = 2
  internal : exit = 3 ↔ ∃ text made path, Source fs r text ∧ r.stages backend text = .ok (some made) ∧
    r.target = some path ∧ (fs.Obstructed path.text ∨ fs.Overlong path.text)

theorem perform_exitsBy (admitted : Admitted fs given r) (still : r.run = false) :
    ExitsBy backend fs r ((r.perform backend).play execute fs).1.exit where
  undecodable _ _ stored wrong := exit_undecodable stored wrong
  refused := by
    intro text failure source failed
    rw [exit_refused source failed]
    cases Request.stages_textual failed with
    | diagnostic d => exact .inl ⟨d, rfl, rfl⟩
    | overlongDigitRun length => exact .inr ⟨length, rfl, rfl⟩
  dumped _ source dumped := exit_dumped source dumped
  written _ _ _ _ source compiled wanted placed := exit_written still source compiled wanted placed
  unwritable := by
    intro text made path trouble source compiled wanted blocked obstacle long
    rw [exit_unwritable source compiled wanted blocked]
    cases trouble with
    | notDirectory => exact absurd rfl obstacle
    | nameTooLong => exact absurd rfl long
    | _ => rfl
  internal := by
    constructor
    · exact exit_internal admitted still
    · rintro ⟨text, made, path, source, compiled, wanted, misled⟩
      obtain ⟨trouble, blocked, unlisted⟩ := FileSystem.internal_iff.mpr misled
      rw [exit_unwritable source compiled wanted blocked]
      exact Trouble.status_eq_internal.mpr unlisted

theorem exit_unadmitted (execute : Runner → Module → Logged Int) (fs : FileSystem) (read : items arguments = .ok given)
    (unanswered : given.findSome? immediate = none) (usable : ¬HasNull given) (refused : ∀ r, ¬Admitted fs given r) :
    ((session backend arguments).play execute fs).1.exit = 2 := by
  obtain ⟨fault, played, unusable⟩ := play_session_refused read unanswered refused
  rw [played]
  exact UsageFault.report_exit fun same => usable (unusable same)

-- Whatever the world outside answers, work that runs nothing ends with the status of an internal fault exactly when
-- reading or writing comes to an error that is not listed. Where there are only directories and plain files, this is an
-- output path that runs through a file or comes to a name that is too long.
theorem exit_status_without_run (backend : Backend) (read : items arguments = .ok given)
    (unanswered : given.findSome? immediate = none) (still : hasFlag given .run = false) :
    (∀ events report, (session backend arguments).Comes events report →
      (report.exit = 3 ↔ MeetsUnlisted events) ∧
      (Refused events report.exit ∨ ∃ r looks later, request given = .ok r ∧ events = looks ++ later ∧
        Passed given looks ∧ Course backend r later report.exit)) ∧
    ∀ execute fs, ¬HasNull given →
      ((∀ r, ¬Admitted fs given r) → ((session backend arguments).play execute fs).1.exit = 2) ∧
      ((∃ path ∈ operands given, fs.look path ≠ .ok .file) →
        ((session backend arguments).play execute fs).1.exit = 2) ∧
      ((∃ path ∈ valueOf given .output, fs.look path = .ok .directory) →
        ((session backend arguments).play execute fs).1.exit = 2) ∧
      ∀ r, Admitted fs given r → ExitsBy backend fs r ((session backend arguments).play execute fs).1.exit := by
  constructor
  · intro events report comes
    rcases session_comes read unanswered comes with refused | ⟨r, looks, later, requested, rfl, passed, onward⟩
    · have quiet := not_meetsUnlisted_of_looks refused.looks
      exact ⟨iff_of_false refused.exit_ne_internal quiet, .inl refused⟩
    · obtain ⟨path, runner, -, -, made⟩ := request_eq_ok_iff.mp requested
      have course := perform_course (by rw [made, still]) onward
      have quiet := not_meetsUnlisted_of_looks fun event member => (passed.favourable event member).looked
      refine ⟨?_, .inr ⟨r, looks, later, requested, rfl, passed, course⟩⟩
      rw [course.internal_iff, meetsUnlisted_append]
      exact (or_iff_right quiet).symm
  · intro execute fs usable
    have refused : (∀ r, ¬Admitted fs given r) → ((session backend arguments).play execute fs).1.exit = 2 :=
      exit_unadmitted execute fs read unanswered usable
    refine ⟨refused, ?_, ?_, ?_⟩
    · rintro ⟨path, listed, unseen⟩
      exact refused fun r admitted => unseen (admitted.input path listed)
    · rintro ⟨path, set, directory⟩
      exact refused fun r admitted => (admitted.output path set).2 directory
    · intro r admitted
      obtain ⟨path, runner, -, -, made⟩ := request_eq_ok_iff.mp admitted.requested
      rw [play_session_admitted read admitted]
      exact perform_exitsBy admitted (by rw [made, still])

def plainReturn : String := "int main()\x7breturn 1;\x7d"

-- An output in a directory that is not there.
def missingDirectory : List String := ["--no-verify", "a.c", "-o", "b/c.ll"]

theorem missingDirectory_exit_status :
    ∃ r made events, Admitted (workshop plainReturn) [.flag .noVerify, .operand "a.c", .setting .output "b/c.ll"] r ∧
      r.stages .builtIn plainReturn = .ok (some made) ∧
      ((session .builtIn missingDirectory).playOn bareHost (workshop plainReturn)).1.exit = 2 ∧
      (session .builtIn missingDirectory).Comes events
        ((session .builtIn missingDirectory).playOn bareHost (workshop plainReturn)).1 ∧ ¬MeetsUnlisted events := by
  let given : List Item := [.flag .noVerify, .operand "a.c", .setting .output "b/c.ll"]
  let r : Request := ⟨⟨"", ["a.c"]⟩, some ⟨"", ["b", "c.ll"]⟩, .jit, false, false, false, false, false⟩
  have read : items missingDirectory = .ok given := by decide +kernel
  have admitted : Admitted (workshop plainReturn) given r :=
    ⟨by decide +kernel, by decide +kernel, by decide +kernel, by decide +kernel⟩
  have usable : ¬HasNull given := by
    rintro ⟨path, listed | set, null⟩
    · rw [show operands given = ["a.c"] by decide +kernel, List.mem_singleton] at listed
      subst listed
      exact absurd null (by decide)
    · rw [show valueOf given .output = some "b/c.ll" by decide +kernel] at set
      cases set
      exact absurd null (by decide)
  have source : Source (workshop plainReturn) r plainReturn :=
    ⟨Session.encode plainReturn, by decide +kernel, by decide +kernel⟩
  obtain ⟨made, compiled⟩ : ∃ made, (compile .builtIn r.options r.input.text plainReturn).result = .ok made :=
    isOk_iff.mp (by decide +kernel)
  have staged : r.stages .builtIn plainReturn = .ok (some made) :=
    Request.stages_eq_some_iff.mpr ⟨rfl, rfl, compiled⟩
  obtain ⟨any, files⟩ := exit_status_without_run .builtIn read (by decide +kernel) (by decide)
  obtain ⟨-, -, -, exits⟩ := files (fun runner m => runner.run bareHost m usualEntry) (workshop plainReturn) usable
  have exit := (exits r admitted).unwritable _ made _ .notFound source staged rfl (by decide +kernel) nofun nofun
  obtain ⟨events, comes⟩ := Session.comes_play (fun runner m => runner.run bareHost m usualEntry)
    (session .builtIn missingDirectory) (workshop plainReturn)
  refine ⟨r, made, events, admitted, staged, exit, comes, fun unlisted => ?_⟩
  have internal := (any events _ comes).1.mpr unlisted
  rw [exit] at internal
  cases internal

-- The path of the output runs through the input.
theorem throughInput_exit_status :
    ((session .builtIn ["--no-verify", "a.c", "-o", "a.c/b.ll"]).playOn bareHost (workshop plainReturn)).1 =
      ⟨3, "", "Internal error: [Errno 20] Not a directory: 'a.c/b.ll'\n"⟩ := by
  decide +kernel

end Command

end WordC
