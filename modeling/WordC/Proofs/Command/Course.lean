import WordC.Proofs.Command.Effects
import WordC.Proofs.Failures

namespace WordC

-- A problem of the text itself: a diagnostic, or a number that is too long to be read at all.
inductive Textual : Failure → Prop where
  | diagnostic (d : Diagnostic) : Textual (.diagnostic d)
  | overlongDigitRun (length : Nat) : Textual (.overlongDigitRun length)

theorem KeepsTo.textual {outcome : Except Failure α} {failure : Failure} (keeps : KeepsTo stage outcome)
    (failed : outcome = .error failure) : Textual failure := by
  rcases keeps with ⟨result, done⟩ | ⟨d, stopped, -⟩
  · rw [done] at failed
    cases failed
  · rw [stopped] at failed
    cases failed
    exact .diagnostic d

theorem tokenize_textual {failure : Failure} (failed : tokenize file text = .error failure) : Textual failure := by
  unfold tokenize tokensFrom at failed
  simp only at failed
  split at failed
  · cases failed
  · rename_i place fault stopped
    cases failed
    cases fault with
    | overlongDigitRun length => exact .overlongDigitRun length
    | _ => exact .diagnostic _

theorem parseText_textual {failure : Failure} (failed : parseText file text = .error failure) : Textual failure := by
  rcases bind_eq_error.mp failed with unread | ⟨tokens, -, refused⟩
  · exact tokenize_textual unread
  · exact (parseTokens_keepsTo _ tokens).textual refused

-- What the stages before lowering let through is lowered without a defect.
theorem compile_textual {failure : Failure} (failed : (compile backend options file text).result = .error failure) :
    Textual failure := by
  rw [compile_result] at failed
  rcases bind_eq_error.mp failed with unread | ⟨tokens, scanned, failed⟩
  · exact tokenize_textual unread
  rcases bind_eq_error.mp failed with refused | ⟨p, parsed, failed⟩
  · exact (parseTokens_keepsTo _ tokens).textual refused
  have formed := Pointing.formed_of_scanned scanned (Parse.parseTokens_eq_ok_iff.mp parsed)
  rcases bind_eq_error.mp failed with rejected | ⟨m, lowered, failed⟩
  · exact (lowerProgram_keepsTo formed _ _).textual rejected
  rcases bind_eq_error.mp failed with unverified | ⟨_, _, impossible⟩
  · exact (verification_keepsTo _ _ m).textual unverified
  · cases impossible

-- The errors that are put down to the arguments: permission denied (1 and 13), no such file (2), a directory (21), and
-- values that are no good.
def Trouble.isListed : Trouble → Bool
  | .system code _ _ => [1, 2, 13, 21].contains code
  | .value _ => true
  | .other _ => false

def Trouble.isSystem : Trouble → Bool
  | .system .. => true
  | _ => false

def Trouble.status (trouble : Trouble) : Nat := if trouble.isListed then 2 else 3

theorem SystemTrouble.listed_iff (code : Nat) :
    (SystemTrouble.ofCode code = .notFound ∨ SystemTrouble.ofCode code = .denied ∨
      SystemTrouble.ofCode code = .isDirectory) ↔ code ∈ [1, 2, 13, 21] := by
  unfold SystemTrouble.ofCode
  split_ifs <;> simp_all <;> omega

theorem Trouble.blame_exit (trouble : Trouble) : trouble.outside.blame.exit = trouble.status := by
  cases trouble with
  | value words => rfl
  | other words => rfl
  | system code words file =>
    obtain ⟨given, known⟩ : ∃ given, (system code words file).outside = .system (.ofCode code) given := by
      cases file <;> exact ⟨_, rfl⟩
    have listed := SystemTrouble.listed_iff code
    rw [known, status, isListed]
    generalize SystemTrouble.ofCode code = kind at listed
    cases kind <;> simp_all [Outside.blame, Blame.exit]

theorem Trouble.status_eq_internal {trouble : Trouble} : trouble.status = 3 ↔ trouble.isListed = false := by
  unfold status
  cases trouble.isListed <;> decide

namespace Command

variable {backend : Backend} {execute : Runner → Module → Logged Int} {fs : FileSystem} {given : List Item}
  {r : Request}

theorem Request.stages_textual {failure : Failure} (failed : r.stages backend text = .error failure) :
    Textual failure := by
  unfold stages at failed
  split_ifs at failed
  · exact tokenize_textual (map_eq_error.mp failed)
  · exact parseText_textual (map_eq_error.mp failed)
  · exact compile_textual (map_eq_error.mp failed)

theorem UsageFault.report_exit {fault : UsageFault} (usable : fault ≠ .pathUnusable) : fault.report.exit = 2 := by
  cases fault with
  | pathUnusable => exact absurd rfl usable
  | _ => rfl

theorem Request.exists_target (still : r.run = false) : ∃ path, r.target = some path := by
  unfold target
  cases r.output with
  | some path => exact ⟨path, rfl⟩
  | none => exact ⟨_, by rw [still]; rfl⟩

theorem Request.failed_exit (before : String) (log : List LogRecord) (failure : Failure) :
    (r.failed before log failure).exit = (failure.complaint none).exit := by
  cases failure <;> rfl

theorem Request.failed_file_exit (before : String) (log : List LogRecord) (trouble : Trouble) :
    (r.failed before log (.file trouble)).exit = trouble.status :=
  trouble.blame_exit

theorem undecodable_exit {failure : Failure} (undecodable : sourceText bytes = .error failure) :
    (failure.complaint none).exit = 2 := by
  unfold sourceText at undecodable
  split at undecodable
  · cases undecodable
    rfl
  · cases undecodable

-- The courses that work which runs nothing can take, by what it is answered, with the exit status of each.
inductive Course (backend : Backend) (r : Request) : List Event → Nat → Prop where
  | unread : Course backend r [.read r.input.text (.error trouble)] trouble.status
  | undecodable (failure : Failure) : sourceText bytes = .error failure →
      Course backend r [.read r.input.text (.ok bytes)] 2
  | diagnosed : sourceText bytes = .ok text → r.stages backend text = .error (.diagnostic d) →
      Course backend r [.read r.input.text (.ok bytes)] 1
  | overlong : sourceText bytes = .ok text → r.stages backend text = .error (.overlongDigitRun length) →
      Course backend r [.read r.input.text (.ok bytes)] 2
  | dumped : sourceText bytes = .ok text → r.stages backend text = .ok none →
      Course backend r [.read r.input.text (.ok bytes)] 0
  | written : sourceText bytes = .ok text → r.stages backend text = .ok (some made) → r.target = some path →
      Course backend r [.read r.input.text (.ok bytes), .wrote path.text made.module.text (.ok ())] 0
  | unwritten : sourceText bytes = .ok text → r.stages backend text = .ok (some made) → r.target = some path →
      Course backend r [.read r.input.text (.ok bytes), .wrote path.text made.module.text (.error trouble)]
        trouble.status

theorem process_course (still : r.run = false) (decoded : sourceText bytes = .ok text)
    (comes : (r.process backend text).Comes events report) :
    Course backend r (.read r.input.text (.ok bytes) :: events) report.exit := by
  cases staged : r.stages backend text with
  | error failure =>
    obtain ⟨log, process⟩ := Request.process_failed staged
    rw [process] at comes
    cases comes
    rw [Request.failed_exit]
    cases Request.stages_textual staged with
    | diagnostic d => exact .diagnosed decoded staged
    | overlongDigitRun length => exact .overlong decoded staged
  | ok made =>
    cases made with
    | none =>
      obtain ⟨shown, log, process⟩ := Request.process_dumped staged
      rw [process] at comes
      cases comes
      exact .dumped decoded staged
    | some made =>
      obtain ⟨log, process⟩ := Request.process_compiled staged
      obtain ⟨path, wanted⟩ := Request.exists_target still
      simp only [process, Request.deliver, wanted, Request.finish, still] at comes
      obtain ⟨answer, later, rfl, onward⟩ := Session.comes_write comes
      cases answer with
      | error trouble =>
        cases onward
        rw [Request.failed_file_exit]
        exact .unwritten decoded staged wanted
      | ok _ =>
        cases onward
        exact .written decoded staged wanted

theorem perform_course (still : r.run = false) (comes : (r.perform backend).Comes events report) :
    Course backend r events report.exit := by
  obtain ⟨answer, later, rfl, onward⟩ := Session.comes_read comes
  cases answer with
  | error trouble =>
    cases onward
    rw [Request.failed_file_exit]
    exact .unread
  | ok bytes =>
    cases decoded : sourceText bytes with
    | error failure =>
      simp only [decoded] at onward
      cases onward
      rw [Request.failed_exit, undecodable_exit decoded]
      exact .undecodable failure decoded
    | ok text =>
      simp only [decoded] at onward
      exact process_course still decoded onward

-- Reading or writing came to an error that is not listed.
def MeetsUnlisted (events : List Event) : Prop :=
  ∃ event ∈ events, ∃ trouble ∈ event.trouble?, trouble.isListed = false

theorem meetsUnlisted_append : MeetsUnlisted (earlier ++ later) ↔ MeetsUnlisted earlier ∨ MeetsUnlisted later := by
  simp only [MeetsUnlisted, List.mem_append, or_and_right, exists_or]

theorem Course.internal_iff (course : Course backend r events exit) : exit = 3 ↔ MeetsUnlisted events := by
  cases course <;> simp [MeetsUnlisted, Event.trouble?, Trouble.status_eq_internal]

-- A look that speaks for a command line: its input is a file, and its output is one or is not there.
inductive Favourable (given : List Item) : Event → Prop where
  | input : path ∈ operands given → Favourable given (.looked path (.ok .file))
  | output : valueOf given .output = some path → Favourable given (.looked path (.ok .file))
  | absent : valueOf given .output = some path → Favourable given (.looked path (.error (.system code words file)))

-- What is found out by looking at paths alone.
structure Judged (given : List Item) (events : List Event) (verdict : Except UsageFault Unit) : Prop where
  looks : ∀ event ∈ events, ∃ path answer, event = .looked path answer
  passed : verdict = .ok () → ∀ event ∈ events, Favourable given event
  unusable : verdict = .error .pathUnusable →
    ∃ path trouble, .looked path (.error trouble) ∈ events ∧ trouble.isSystem = false

theorem judged_unseen (usable : verdict ≠ .error .pathUnusable) : Judged given [] verdict :=
  ⟨by simp, by simp, fun unusable => absurd unusable usable⟩

theorem judged_look (passed : verdict = .ok () → Favourable given (.looked path answer))
    (unusable : verdict = .error .pathUnusable → ∃ trouble, answer = .error trouble ∧ trouble.isSystem = false) :
    Judged given [.looked path answer] verdict where
  looks := by simp
  passed done := by simpa using passed done
  unusable strange := by
    obtain ⟨trouble, rfl, other⟩ := unusable strange
    exact ⟨path, trouble, List.mem_cons_self, other⟩

theorem checkInput_judged (listed : path ∈ operands given) (comes : (checkInput path).Comes events verdict) :
    Judged given events verdict ∧ (verdict = .ok () → .looked path (.ok .file) ∈ events) := by
  obtain ⟨answer, later, rfl, onward⟩ := Session.comes_look comes
  rcases answer with trouble | sort
  · cases trouble with
    | system code words file =>
      cases onward
      exact ⟨judged_look (by simp) (by simp), by simp⟩
    | value words | other words =>
      cases onward
      exact ⟨judged_look (by simp) fun _ => ⟨_, rfl, rfl⟩, by simp⟩
  · cases sort with
    | file =>
      cases onward
      exact ⟨judged_look (fun _ => .input listed) (by simp), fun _ => List.mem_cons_self⟩
    | directory | unreadable =>
      cases onward
      exact ⟨judged_look (by simp) (by simp), by simp⟩

theorem checkOutput_judged (set : valueOf given .output = some path) (comes : (checkOutput path).Comes events verdict) :
    Judged given events verdict ∧ (verdict = .ok () → ∃ answer, .looked path answer ∈ events) := by
  obtain ⟨answer, later, rfl, onward⟩ := Session.comes_look comes
  rcases answer with trouble | sort
  · cases trouble with
    | system code words file =>
      cases onward
      exact ⟨judged_look (fun _ => .absent set) (by simp), fun _ => ⟨_, List.mem_cons_self⟩⟩
    | value words | other words =>
      cases onward
      exact ⟨judged_look (by simp) fun _ => ⟨_, rfl, rfl⟩, by simp⟩
  · cases sort with
    | file =>
      cases onward
      exact ⟨judged_look (fun _ => .output set) (by simp), fun _ => ⟨_, List.mem_cons_self⟩⟩
    | directory | unreadable =>
      cases onward
      exact ⟨judged_look (by simp) (by simp), by simp⟩

theorem checkItem_judged {item : Item} (comes : (checkItem given item).Comes events verdict) :
    Judged given events verdict ∧ (verdict = .ok () → ∀ value, item = .setting .output value →
      ∀ path ∈ valueOf given .output, ∃ answer, .looked path answer ∈ events) := by
  match item with
  | .flag _ | .operand _ =>
    cases comes
    exact ⟨judged_unseen nofun, nofun⟩
  | .setting .output _ =>
    unfold checkItem at comes
    cases set : valueOf given .output with
    | none =>
      rw [set] at comes
      cases comes
      exact ⟨judged_unseen nofun, nofun⟩
    | some path =>
      rw [set] at comes
      obtain ⟨judged, looked⟩ := checkOutput_judged set comes
      refine ⟨judged, fun passed value _ other same => ?_⟩
      cases same
      exact looked passed
  | .setting .runner _ =>
    unfold checkItem at comes
    cases comes
    refine ⟨judged_unseen ?_, nofun⟩
    cases valueOf given .runner with
    | none => nofun
    | some name => exact fun unusable => runnerOf_ne_pathUnusable name (map_eq_error.mp unusable)

-- A command line that the looks at its paths speak for.
structure Passed (given : List Item) (looks : List Event) : Prop where
  favourable : ∀ event ∈ looks, Favourable given event
  input : ∀ path ∈ (operands given).head?, .looked path (.ok .file) ∈ looks
  output : ∀ path ∈ valueOf given .output, ∃ answer, .looked path answer ∈ looks

theorem Judged.append (first : Judged given earlier (.ok ())) (second : Judged given later verdict) :
    Judged given (earlier ++ later) verdict where
  looks := List.forall_mem_append.mpr ⟨first.looks, second.looks⟩
  passed passed := List.forall_mem_append.mpr ⟨first.passed rfl, second.passed passed⟩
  unusable unusable := by
    obtain ⟨path, trouble, looked, strange⟩ := second.unusable unusable
    exact ⟨path, trouble, List.mem_append_right _ looked, strange⟩

theorem checkItems_judged {rest : List Item} (comes : (checkItems given rest).Comes events verdict) :
    Judged given events verdict ∧ (verdict = .ok () →
      (∀ path ∈ (operands given).head?, .looked path (.ok .file) ∈ events) ∧
      ∀ value, .setting .output value ∈ rest →
        ∀ path ∈ valueOf given .output, ∃ answer, .looked path answer ∈ events) := by
  induction rest generalizing events with
  | nil =>
    unfold checkItems at comes
    cases listed : operands given with
    | nil =>
      rw [listed] at comes
      cases comes
      exact ⟨judged_unseen (by simp), by simp⟩
    | cons input more =>
      rw [listed] at comes
      have member : input ∈ operands given := by simp [listed]
      obtain ⟨judged, looked⟩ := checkInput_judged member comes
      exact ⟨judged, fun passed => ⟨by simpa using looked passed, by simp⟩⟩
  | cons item rest ih =>
    obtain ⟨earlier, later, reached, rfl, first, second⟩ := Session.comes_andThen comes
    obtain ⟨judged, looked⟩ := checkItem_judged first
    cases reached with
    | error fault =>
      cases second
      rw [List.append_nil]
      exact ⟨judged, by simp⟩
    | ok _ =>
      obtain ⟨judged', looked'⟩ := ih second
      refine ⟨judged.append judged', fun passed => ⟨fun path there => ?_, fun value member path set => ?_⟩⟩
      · exact List.mem_append_right _ ((looked' passed).1 path there)
      · rcases List.mem_cons.mp member with same | old
        · obtain ⟨answer, there⟩ := looked rfl value same.symm path set
          exact ⟨answer, List.mem_append_left _ there⟩
        · obtain ⟨answer, there⟩ := (looked' passed).2 value old path set
          exact ⟨answer, List.mem_append_right _ there⟩

-- A command line that is refused after looks at its paths.
structure Refused (events : List Event) (exit : Nat) : Prop where
  looks : ∀ event ∈ events, ∃ path answer, event = .looked path answer
  status : exit = 2 ∨ exit = 1 ∧ ∃ path trouble, .looked path (.error trouble) ∈ events ∧ trouble.isSystem = false

theorem Judged.refused {fault : UsageFault} (judged : Judged given events (.error fault)) :
    Refused events fault.report.exit := by
  refine ⟨judged.looks, ?_⟩
  by_cases unusable : fault = .pathUnusable
  · subst unusable
    exact .inr ⟨rfl, judged.unusable rfl⟩
  · exact .inl (UsageFault.report_exit unusable)

-- A command line is refused for its looks, or it is let through and its request carried out.
theorem session_comes (read : items arguments = .ok given) (unanswered : given.findSome? immediate = none)
    (comes : (session backend arguments).Comes events report) :
    Refused events report.exit ∨ ∃ r looks later, request given = .ok r ∧ events = looks ++ later ∧
      Passed given looks ∧ (r.perform backend).Comes later report := by
  simp only [session, read, unanswered] at comes
  obtain ⟨looks, later, verdict, rfl, checked, onward⟩ := Session.comes_andThen comes
  obtain ⟨judged, looked⟩ := checkItems_judged checked
  cases verdict with
  | error fault =>
    cases onward
    rw [List.append_nil]
    exact .inl judged.refused
  | ok _ =>
    cases requested : request given with
    | error fault =>
      simp only [requested] at onward
      cases onward
      rw [List.append_nil]
      exact .inl ⟨judged.looks, .inl (UsageFault.report_exit (request_ne_pathUnusable requested))⟩
    | ok r =>
      simp only [requested] at onward
      refine .inr ⟨r, looks, later, rfl, rfl, ⟨judged.passed rfl, (looked rfl).1, fun path set => ?_⟩, onward⟩
      exact (looked rfl).2 path (mem_of_valueOf set) path set

theorem not_meetsUnlisted_of_looks (looks : ∀ event ∈ events, ∃ path answer, event = Event.looked path answer) :
    ¬MeetsUnlisted events := by
  rintro ⟨event, member, trouble, met, -⟩
  obtain ⟨path, answer, rfl⟩ := looks event member
  cases met

theorem Favourable.looked (favourable : Favourable given event) : ∃ path answer, event = .looked path answer := by
  cases favourable <;> exact ⟨_, _, rfl⟩

theorem Refused.exit_ne_internal (refused : Refused events exit) : exit ≠ 3 := by
  rcases refused.status with two | ⟨one, -⟩ <;> omega

end Command

end WordC
