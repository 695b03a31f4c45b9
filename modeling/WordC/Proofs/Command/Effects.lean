import WordC.Assembly.Backend
import WordC.Proofs.Command.Admission
import WordC.Proofs.Compile
import WordC.Proofs.Text.Digits

namespace WordC

-- Texts without escapes are shown as they are.
theorem Text.plain_eq_self {text : String} (unescaped : '\x1b' ∉ text.toList) : Text.plain text = text := by
  have kept (chars : List Char) (unescaped : '\x1b' ∉ chars) : Text.dropControls 0 chars = chars := by
    induction chars with
    | nil => rfl
    | cons c rest ih =>
      obtain ⟨here, later⟩ := not_or.mp (mt List.mem_cons.mpr unescaped)
      have none : Text.controlLength (c :: rest) = 0 := by
        unfold Text.controlLength
        split
        · rename_i opens
          exact absurd (List.cons.inj opens).1.symm here
        · rfl
      rw [Text.dropControls, none, ih later]
  rw [Text.plain, kept _ unescaped, String.ofList_toList]

theorem Text.plain_toString (value : Int) : Text.plain (toString value) = toString value :=
  Text.plain_eq_self (Text.not_mem_toString rfl (by decide) value)

-- Work that reports what goes wrong as a diagnostic.
def Logged.Diagnosed (work : Logged α) : Prop :=
  ∀ failure, work.result = .error failure → ∃ d, failure = .diagnostic d

theorem Logged.Diagnosed.andThen {first : Logged α} {next : α → Logged β} (diagnosed : first.Diagnosed)
    (later : ∀ reached, first.result = .ok reached → (next reached).Diagnosed) : (first.andThen next).Diagnosed := by
  intro failure failed
  rw [Logged.andThen_result] at failed
  rcases bind_eq_error.mp failed with here | ⟨reached, done, there⟩
  · exact diagnosed failure here
  · exact later reached done failure there

theorem Logged.diagnosed_pure (result : α) : (Logged.pure result).Diagnosed := nofun

theorem Logged.diagnosed_note (part message : String) : (Logged.note part message).Diagnosed := nofun

theorem Logged.diagnosed_ofBackend (result : Except BackendFailure α) : (Logged.ofBackend result).Diagnosed := by
  intro failure failed
  obtain ⟨cause, -, rfl⟩ := mapError_eq_error.mp failed
  exact ⟨_, rfl⟩

namespace Runner

theorem diagnosed_runJit (backend : Backend) (m : Module) (entry : String) : (runJit backend m entry).Diagnosed := by
  apply (Logged.diagnosed_ofBackend _).andThen
  intro _ _
  apply (Logged.diagnosed_ofBackend _).andThen
  intro _ _
  apply (Logged.diagnosed_ofBackend _).andThen
  intro _ _
  apply (Logged.diagnosed_note _ _).andThen
  intro _ _
  apply (Logged.diagnosed_ofBackend _).andThen
  intro value _
  apply (Logged.diagnosed_note _ _).andThen
  intro _ _
  exact Logged.diagnosed_pure value

-- The usual tool can only be missing.
theorem start_usualTool (host : Host) (failed : host.start usualTool = .error trouble) : trouble = .notFound := by
  unfold Host.start Host.startByName at failed
  rw [if_neg (by decide), if_neg (by decide), if_neg (by decide), if_neg (by decide)] at failed
  cases found : host.tools usualTool with
  | none =>
    rw [found] at failed
    cases failed
    rfl
  | some run =>
    rw [found] at failed
    cases failed

theorem diagnosed_runLli (host : Host) (m : Module) (entry : String) : (runLli host usualTool m entry).Diagnosed := by
  apply (Logged.diagnosed_ofBackend _).andThen
  intro launch _
  apply (Logged.diagnosed_note _ _).andThen
  intro _ _
  have concluded : (Logged.ofExcept (launch.conclude (host.start usualTool))).Diagnosed := by
    intro failure failed
    change launch.conclude (host.start usualTool) = .error failure at failed
    cases started : host.start usualTool with
    | error trouble =>
      rw [started, start_usualTool host started] at failed
      cases failed
      exact ⟨_, rfl⟩
    | ok run =>
      rw [started] at failed
      unfold Launch.conclude at failed
      cases ended : run.ending with
      | exited status => simp [ended] at failed
      | killed signal =>
        simp only [ended, Except.error.injEq] at failed
        exact ⟨_, failed.symm⟩
  apply concluded.andThen
  intro status _
  apply (Logged.diagnosed_note _ _).andThen
  intro _ _
  exact Logged.diagnosed_pure _

end Runner

namespace Command

variable {backend : Backend} {execute : Runner → Module → Logged Int} {fs : FileSystem}

namespace Request

variable {r : Request} {text : String} {failure : Failure} {made : Compiled}

-- What the stages that a request goes through make of a text. A dump ends before there is a module.
def stages (backend : Backend) (r : Request) (text : String) : Except Failure (Option Compiled) :=
  if r.tokens then (tokenize r.input.text text).map fun _ => none
  else if r.outline then (parseText r.input.text text).map fun _ => none
  else (compile backend r.options r.input.text text).result.map some

theorem tokenListing_result (r : Request) (text : String) :
    (r.tokenListing text).result = (tokenize r.input.text text).map Token.listing := by
  simp only [tokenListing, Logged.andThen_result, Stages.scan_result]
  rfl

theorem treeOutline_result (r : Request) (text : String) :
    (r.treeOutline text).result = (parseText r.input.text text).map fun p => said p.outlineText := by
  simp only [treeOutline, Logged.andThen_result, Stages.scan_result, Stages.parse_result, parseText]
  cases tokenize r.input.text text <;> rfl

theorem shown_failed {work : Logged String} (failed : work.result = .error failure) :
    r.shown work = r.failed r.opening work.log failure := by
  simp only [shown, failed]

theorem shown_done {work : Logged String} (done : work.result = .ok answer) :
    r.shown work = r.succeeded 0 (r.opening ++ answer) work.log := by
  simp only [shown, done]

theorem process_failed (failed : r.stages backend text = .error failure) :
    ∃ log, r.process backend text = .done (r.failed r.opening log failure) := by
  unfold stages at failed
  unfold process
  split_ifs at failed ⊢
  · have listing := tokenListing_result r text
    rw [map_eq_error.mp failed] at listing
    exact ⟨_, congrArg Session.done (shown_failed listing)⟩
  · have outlined := treeOutline_result r text
    rw [map_eq_error.mp failed] at outlined
    exact ⟨_, congrArg Session.done (shown_failed outlined)⟩
  · simp only [map_eq_error.mp failed]
    exact ⟨_, rfl⟩

theorem process_dumped (dumped : r.stages backend text = .ok none) :
    ∃ shown log, r.process backend text = .done (r.succeeded 0 shown log) := by
  unfold stages at dumped
  unfold process
  split_ifs at dumped ⊢
  · obtain ⟨tokens, scanned, -⟩ := map_eq_ok.mp dumped
    have listing := tokenListing_result r text
    rw [scanned] at listing
    exact ⟨_, _, congrArg Session.done (shown_done listing)⟩
  · obtain ⟨program, parsed, -⟩ := map_eq_ok.mp dumped
    have outlined := treeOutline_result r text
    rw [parsed] at outlined
    exact ⟨_, _, congrArg Session.done (shown_done outlined)⟩
  · obtain ⟨_, _, impossible⟩ := map_eq_ok.mp dumped
    cases impossible

theorem stages_eq_some_iff :
    r.stages backend text = .ok (some made) ↔
      r.tokens = false ∧ r.outline = false ∧ (compile backend r.options r.input.text text).result = .ok made := by
  unfold stages
  split_ifs with tokens outline
  · simp [map_eq_ok, tokens]
  · simp [map_eq_ok, outline]
  · simp [map_eq_ok, tokens, outline]

theorem process_compiled (compiled : r.stages backend text = .ok (some made)) :
    ∃ log, r.process backend text = r.deliver log made := by
  obtain ⟨tokens, outline, done⟩ := stages_eq_some_iff.mp compiled
  unfold process
  rw [if_neg (by simp [tokens]), if_neg (by simp [outline])]
  simp only [done]
  exact ⟨_, rfl⟩

-- What is said before a module is run.
def preface (r : Request) (made : Compiled) : String :=
  r.opening ++ (r.target.map fun path => r.delivered path made).getD ""

theorem play_deliver_kept (log : List LogRecord) (kept : r.target = none) :
    (r.deliver log made).play execute fs = (r.finish (r.preface made) log made.module).play execute fs := by
  simp [deliver, preface, kept]

theorem play_deliver_written (log : List LogRecord) (wanted : r.target = some path)
    (placed : fs.locateForWriting path.text = .ok place) :
    (r.deliver log made).play execute fs = (r.finish (r.preface made) log made.module).play execute
      (fs.put place (Session.encode made.module.text)) := by
  simp [deliver, preface, wanted, Session.play, FileSystem.write_eq placed]

theorem play_deliver_blocked (log : List LogRecord) (wanted : r.target = some path)
    (blocked : fs.locateForWriting path.text = .error trouble) :
    (r.deliver log made).play execute fs = (r.failed r.opening log (.file (trouble.answer path.text)), fs) := by
  simp [deliver, wanted, Session.play, FileSystem.write, blocked]

theorem play_finish (before : String) (log : List LogRecord) (m : Module) :
    (r.finish before log m).play execute fs =
      (if r.run then
        match (execute r.runner m).result with
        | .error failure => r.failed before (log ++ (execute r.runner m).log) failure
        | .ok value => r.succeeded (exitOf value) (before ++ said (toString value)) (log ++ (execute r.runner m).log)
      else r.succeeded 0 before log, fs) := by
  unfold finish
  split
  · simp only [Session.play]
    cases (execute r.runner m).result <;> rfl
  · rfl

-- The report on a diagnostic. It is shown without control sequences of terminals, which begin with an escape.
structure Complains (r : Request) (report : Report) (d : Diagnostic) : Prop where
  exit : report.exit = 1
  errors : ∃ log, report.errors = r.logText log ++ Text.plain d.text ++ "\n" ∧
    ('\x1b' ∉ d.text.toList → report.errors = r.logText log ++ d.text ++ "\n")

theorem failed_complains (before : String) (log : List LogRecord) (d : Diagnostic) :
    r.Complains (r.failed before log (.diagnostic d)) d := by
  have errors : (r.failed before log (.diagnostic d)).errors = r.logText log ++ Text.plain d.text ++ "\n" := by
    change r.logText log ++ (said d.text ++ "") = _
    rw [String.append_empty, said, String.append_assoc]
  refine ⟨rfl, log, errors, fun unescaped => ?_⟩
  rw [errors, Text.plain_eq_self unescaped]

theorem exitOf_spec (value : Int) : exitOf value < 256 ∧ (exitOf value : Int) = value % 256 := by
  have low := Int.emod_nonneg value (by decide : (256 : Int) ≠ 0)
  have high := Int.emod_lt_of_pos value (by decide : (0 : Int) < 256)
  unfold exitOf
  omega

-- The report on a module that was made: it says what running it gave, if that was wanted.
structure Concludes (execute : Runner → Module → Logged Int) (r : Request) (made : Compiled) (report : Report) :
    Prop where
  unrun : r.run = false → report.exit = 0
  value : r.run = true → ∀ value, (execute r.runner made.module).result = .ok value →
    report.exit < 256 ∧ (report.exit : Int) = value % 256 ∧ report.output = r.preface made ++ toString value ++ "\n"
  failure : r.run = true → ∀ failure, (execute r.runner made.module).result = .error failure →
    ∃ d, failure = .diagnostic d ∧ r.Complains report d

theorem play_finish_concludes (log : List LogRecord)
    (diagnosed : ∀ m, (execute r.runner m).Diagnosed) :
    ∃ report, (r.finish (r.preface made) log made.module).play execute fs = (report, fs) ∧
      r.Concludes execute made report := by
  refine ⟨_, play_finish _ _ _, ?_, ?_, ?_⟩
  · intro still
    simp [still, succeeded]
  · intro run value ran
    simp only [run, if_true, ran, succeeded]
    refine ⟨(exitOf_spec value).1, (exitOf_spec value).2, ?_⟩
    rw [said, Text.plain_toString, String.append_assoc]
  · intro run failure ran
    obtain ⟨d, rfl⟩ := diagnosed _ _ ran
    refine ⟨d, rfl, ?_⟩
    simp only [run, if_true, ran]
    exact failed_complains _ _ d

-- What becomes of the files once a module was made: it is written to the output path, or beside the input where
-- there is neither an output path nor a wish to run it.
structure Delivers (r : Request) (made : Compiled) (fs after : FileSystem) : Prop where
  chosen : ∀ path, r.output = some path → fs.Written path.text (Session.encode made.module.text) after
  beside : r.output = none → r.run = false →
    fs.Written (r.input.withSuffix ".ll").text (Session.encode made.module.text) after
  nowhere : r.output = none → r.run = true → after = fs

theorem delivers_written (wanted : r.target = some path)
    (written : fs.Written path.text (Session.encode made.module.text) after) : r.Delivers made fs after := by
  unfold target at wanted
  constructor
  · intro chosen given
    have same : chosen = path := by simpa [given] using wanted
    rwa [same]
  · intro ungiven still
    have same : r.input.withSuffix ".ll" = path := by simpa [ungiven, still] using wanted
    rwa [same]
  · intro ungiven run
    simp [ungiven, run] at wanted

theorem delivers_kept (kept : r.target = none) : r.Delivers made fs fs := by
  unfold target at kept
  constructor
  · intro chosen given
    simp [given] at kept
  · intro ungiven still
    simp [ungiven, still] at kept
  · intro _ _
    rfl

theorem play_deliver (log : List LogRecord)
    (openable : ∀ path ∈ r.target, ∃ place, fs.locateForWriting path.text = .ok place)
    (diagnosed : ∀ m, (execute r.runner m).Diagnosed) :
    ∃ report after, (r.deliver log made).play execute fs = (report, after) ∧ r.Delivers made fs after ∧
      r.Concludes execute made report := by
  cases wanted : r.target with
  | none =>
    obtain ⟨report, played, concludes⟩ := play_finish_concludes log diagnosed
    exact ⟨report, fs, (play_deliver_kept log wanted).trans played, delivers_kept wanted, concludes⟩
  | some path =>
    obtain ⟨place, placed⟩ := openable path wanted
    obtain ⟨report, played, concludes⟩ := play_finish_concludes log diagnosed
    exact ⟨report, _, (play_deliver_written log wanted placed).trans played,
      delivers_written wanted (FileSystem.written_put placed _), concludes⟩

end Request

-- Of the ways to run a module, those that can be asked for report all that goes wrong as diagnostics.
theorem Admitted.diagnosed (admitted : Admitted fs given r) (host : Host) (m : Module) :
    (r.runner.run host m usualEntry).Diagnosed := by
  obtain ⟨path, runner, -, named, rfl⟩ := request_eq_ok_iff.mp admitted.requested
  have known : runner = .jit ∨ runner = .lli Runner.usualTool := by
    cases set : valueOf given .runner with
    | none =>
      rw [set] at named
      cases named
      exact .inl rfl
    | some name =>
      rw [set] at named
      have found := mapError_eq_ok.mp named
      unfold Runner.ofName at found
      split_ifs at found
      · exact .inl (Except.ok.inj found).symm
      · exact .inr (Except.ok.inj found).symm
  rcases known with rfl | rfl
  · exact Runner.diagnosed_runJit host.backend m usualEntry
  · exact Runner.diagnosed_runLli host m usualEntry

-- The text of the input.
def Source (fs : FileSystem) (r : Request) (text : String) : Prop :=
  ∃ bytes, fs.read r.input.text = .ok bytes ∧ sourceText bytes = .ok text

theorem play_perform (source : Source fs r text) :
    (r.perform backend).play execute fs = (r.process backend text).play execute fs := by
  obtain ⟨bytes, stored, decoded⟩ := source
  simp only [Request.perform, Session.play, stored, decoded, Except.mapError]

theorem Admitted.stem_ne_empty (admitted : Admitted fs given r) (source : Source fs r text) : r.input.stem ≠ "" := by
  obtain ⟨path, runner, -, -, rfl⟩ := request_eq_ok_iff.mp admitted.requested
  obtain ⟨bytes, stored, -⟩ := source
  exact Path.stem_ne_empty (FileSystem.parts_ne_nil_of_read stored)

-- A command that is let through, on an input that is a text, changes at most one file. It changes none where a dump is
-- asked for or one of the stages fails, nor where the output path cannot be opened.
theorem command_changes_at_most_target (backend : Backend) (execute : Runner → Module → Logged Int) (fs : FileSystem)
    {r : Request} {text : String} (read : items arguments = .ok given) (admitted : Admitted fs given r)
    (source : Source fs r text) (diagnosed : ∀ m, (execute r.runner m).Diagnosed) :
    ∃ report after, (session backend arguments).play execute fs = (report, after) ∧
      (r.tokens = true ∨ r.outline = true → after = fs) ∧
      match r.stages backend text with
      | .error failure => after = fs ∧ ∀ d, failure = .diagnostic d → r.Complains report d
      | .ok none => after = fs ∧ report.exit = 0
      | .ok (some made) =>
        parseText r.input.text text = .ok made.program ∧
        lowerProgram r.input.stem (Text.lines text) made.program = .ok made.module ∧
        ((∀ path ∈ r.target, ∃ place, fs.locateForWriting path.text = .ok place) →
          r.Delivers made fs after ∧ r.Concludes execute made report) ∧
        ∀ path ∈ r.target, ∀ trouble, fs.locateForWriting path.text = .error trouble → after = fs := by
  rw [play_session_admitted read admitted, play_perform source]
  cases staged : r.stages backend text with
  | error failure =>
    obtain ⟨log, process⟩ := Request.process_failed staged
    refine ⟨_, fs, by rw [process]; rfl, fun _ => rfl, rfl, ?_⟩
    rintro d rfl
    exact Request.failed_complains _ log d
  | ok made =>
    cases made with
    | none =>
      obtain ⟨shown, log, process⟩ := Request.process_dumped staged
      exact ⟨_, fs, by rw [process]; rfl, fun _ => rfl, rfl, rfl⟩
    | some made =>
      obtain ⟨tokens, outline, compiled⟩ := Request.stages_eq_some_iff.mp staged
      obtain ⟨log, process⟩ := Request.process_compiled staged
      obtain ⟨-, scanned, parsed, lowered, -⟩ := compile_eq_ok_iff.mp compiled
      have named : r.options.normalize.moduleName = r.input.stem := by
        simp [Options.normalize, Request.options, admitted.stem_ne_empty source]
      refine ⟨_, _, rfl, by simp [tokens, outline], ?_, named ▸ lowered, fun openable => ?_, ?_⟩
      · rw [parseText, scanned]
        exact parsed
      · obtain ⟨report, after, played, effects⟩ := Request.play_deliver log openable diagnosed
        rw [process, played]
        exact effects
      · intro path wanted trouble blocked
        rw [process, Request.play_deliver_blocked log wanted blocked]

-- A place to work in that holds one file, and no tools.
def workshop (content : String) : FileSystem := ⟨⟨[(["a.c"], .file (Session.encode content))]⟩, []⟩

def bareHost : Host := ⟨.builtIn, fun _ => none, workshop "", "/tmp"⟩

-- The value is read as a negative number.
def negativeReturn : String := "int main()\x7breturn 18446744073709551613;\x7d"

def runAside : List String := ["--run", "-o", "./b.ll", "--no-verify", "a.c"]

theorem negativeReturn_changes_target :
    ∃ given r made report after, items runAside = .ok given ∧ Admitted (workshop negativeReturn) given r ∧
      r.stages .builtIn negativeReturn = .ok (some made) ∧
      (session .builtIn runAside).playOn bareHost (workshop negativeReturn) = (report, after) ∧
      report.exit = 253 ∧ (workshop negativeReturn).Written "b.ll" (Session.encode made.module.text) after := by
  let given : List Item := [.flag .run, .setting .output "./b.ll", .flag .noVerify, .operand "a.c"]
  let r : Request := ⟨⟨"", ["a.c"]⟩, some ⟨"", ["b.ll"]⟩, .jit, false, false, true, false, false⟩
  have read : items runAside = .ok given := by decide +kernel
  have admitted : Admitted (workshop negativeReturn) given r :=
    ⟨by decide +kernel, by decide +kernel, by decide +kernel, by decide +kernel⟩
  have source : Source (workshop negativeReturn) r negativeReturn :=
    ⟨Session.encode negativeReturn, by decide +kernel, by decide +kernel⟩
  have openable : ∀ path ∈ r.target, ∃ place, (workshop negativeReturn).locateForWriting path.text = .ok place := by
    rintro path ⟨⟩
    exact ⟨["b.ll"], by decide +kernel⟩
  have valued : (compile .builtIn r.options r.input.text negativeReturn).result.map
      (fun made => (r.runner.run bareHost made.module usualEntry).result) = .ok (.ok (-3)) := by
    decide +kernel
  obtain ⟨made, compiled, ran⟩ := map_eq_ok.mp valued
  have staged : r.stages .builtIn negativeReturn = .ok (some made) :=
    Request.stages_eq_some_iff.mpr ⟨rfl, rfl, compiled⟩
  have effects := command_changes_at_most_target .builtIn (fun runner m => runner.run bareHost m usualEntry)
    (workshop negativeReturn) read admitted source (admitted.diagnosed bareHost)
  simp only [staged] at effects
  obtain ⟨report, after, played, -, -, -, effects, -⟩ := effects
  obtain ⟨delivers, concludes⟩ := effects openable
  obtain ⟨-, exit, -⟩ := concludes.value rfl (-3) ran
  exact ⟨given, r, made, report, after, read, admitted, staged, played, by omega, delivers.chosen _ rfl⟩

-- A control sequence in the line of the program.
def escapedReturn : String := "int main()\x7breturn \x1b[31m3;\x7d"

-- A diagnostic with a control sequence in it is not shown word for word.
theorem escapedReturn_shown_without :
    ∃ d, tokenize "a.c" escapedReturn = .error (.diagnostic d) ∧
      ((session .builtIn ["a.c"]).playOn bareHost (workshop escapedReturn)).1.exit = 1 ∧
      ((session .builtIn ["a.c"]).playOn bareHost (workshop escapedReturn)).1.errors ≠ d.text ++ "\n" := by
  refine ⟨⟨.strayCharacter '\x1b', some ⟨"a.c", 1, 19⟩, some escapedReturn, false⟩, ?_, ?_, ?_⟩
  · decide +kernel
  · decide +kernel
  · decide +kernel

end Command

end WordC
