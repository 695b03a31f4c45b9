import WordC.Compile
import WordC.Proofs.Text.Lines
import WordC.Proofs.Token.Spelling

namespace WordC.Scan

-- Tokens that cover a text, blanks aside. Each is as long as it can be and stands at the place behind all that
-- comes before it.
inductive Placed (file : String) : List Char → List Char → List Token → Prop where
  | last : (∀ c ∈ gap, isBlank c) → Placed file before gap []
  | next : (∀ c ∈ gap, isBlank c) → Spells spelling lexeme → Ends lexeme rest →
      Placed file (before ++ gap ++ spelling) rest tokens →
      Placed file before (gap ++ spelling ++ rest) (⟨lexeme, .behind file (before ++ gap)⟩ :: tokens)

-- A text that begins with a lexeme and with no more of it than that.
def Leads (lexeme : Lexeme) (ahead : List Char) : Prop :=
  ∃ spelling after, ahead = spelling ++ after ∧ Spells spelling lexeme ∧ Ends lexeme after

-- A text at which a scan stops.
def Stops (fault : Fault) (ahead : List Char) : Prop := ∃ passed rest, Starts ahead (.fault fault passed rest)

-- A place in a text, with what stands there.
def Marks (file : String) (text : List Char) (location : Location) (Ahead : List Char → Prop) : Prop :=
  ∃ before ahead, text = before ++ ahead ∧ location = .behind file before ∧ Ahead ahead

theorem Placed.blank (blank : isBlank c) (placed : Placed file (before ++ [c]) rest tokens) :
    Placed file before (c :: rest) tokens := by
  cases placed with
  | last blanks => exact .last (List.forall_mem_cons.mpr ⟨blank, blanks⟩)
  | @next gap spelling lexeme later _ others blanks spells ends placed =>
    have moved : before ++ [c] ++ gap = before ++ c :: gap := by simp
    rw [moved] at placed ⊢
    exact .next (List.forall_mem_cons.mpr ⟨blank, blanks⟩) spells ends placed

theorem Placed.marks (placed : Placed file before text tokens) :
    ∀ token ∈ tokens, Marks file (before ++ text) token.location (Leads token.lexeme) := by
  induction placed with
  | last => simp
  | @next gap spelling lexeme rest before tokens _ spells ends _ ih =>
    intro token member
    rcases List.mem_cons.mp member with rfl | old
    · exact ⟨before ++ gap, spelling ++ rest, by simp, rfl, spelling, rest, rfl, spells, ends⟩
    · have later := ih token old
      have same : before ++ gap ++ spelling ++ rest = before ++ (gap ++ spelling ++ rest) := by simp
      rwa [same] at later

-- One step of the scan after the other, with what lies behind it.
theorem scan_placed (file : String) (before text : List Char) :
    let scanned := scanFrom (Position.start.past before) text
    (scanned.stopped = none → Placed file before text (scanned.tokens file)) ∧
      ∀ place fault, scanned.stopped = some (place, fault) →
        Marks file (before ++ text) (place.inFile file) (Stops fault) := by
  induction text using scan_induction generalizing before with
  | done =>
    rw [scanFrom_nil]
    refine ⟨fun _ => .last (by simp), fun place fault stopped => ?_⟩
    simp at stopped
  | blank c rest blank ih =>
    rw [scanFrom_blank _ blank]
    have further : (Position.start.past before).next c = Position.start.past (before ++ [c]) := by
      rw [Position.past_append]
      rfl
    obtain ⟨placed, stopped⟩ := ih (before ++ [c])
    rw [further]
    refine ⟨fun ended => (placed ended).blank blank, fun place fault ended => ?_⟩
    simpa using stopped place fault ended
  | lexeme spelling lexeme rest spells fits ends ih =>
    rw [scanFrom_lexeme _ spells fits ends, ← Position.past_append]
    obtain ⟨placed, stopped⟩ := ih (before ++ spelling)
    refine ⟨fun ended => ?_, fun place fault ended => ?_⟩
    · have later := placed ended
      rw [← List.append_nil before] at later
      simpa [Result.tokens, Position.inFile_past_start] using Placed.next (by simp) spells ends later
    · simpa using stopped place fault ended
  | fault text fault passed rest starts =>
    rw [scanFrom_fault _ starts]
    refine ⟨fun ended => by simp at ended, fun place found stopped => ?_⟩
    simp only [Option.some.injEq, Prod.mk.injEq] at stopped
    obtain ⟨rfl, rfl⟩ := stopped
    exact ⟨before, text, rfl, Position.inFile_past_start file before, passed, rest, starts⟩

theorem Starts.split (starts : Starts text (.fault fault gone rest)) : text = gone ++ rest := by
  cases starts with
  | tooLarge | overlong | stray => rfl

theorem Ends.take {segment : List Char} (ends : Ends lexeme (segment ++ ahead)) : Ends lexeme segment := by
  intro c first
  cases segment with
  | nil => cases first
  | cons d segment => exact ends c first

-- A scan that is stopped passes a segment of the text, finds the lexemes that the segment has by itself, and stops at
-- what stands behind it.
structure Interrupted (place : Position) (segment ahead gone rest : List Char) (fault : Fault) (result : Result) :
    Prop where
  starts : Starts ahead (.fault fault gone rest)
  ended : (scanFrom place segment).stopped = none
  result : result = ⟨(scanFrom place segment).found, some (place.past segment, fault),
    ⟨place.past (segment ++ gone), rest⟩⟩

theorem scan_interrupted (stopped : (scanFrom place text).stopped = some (stop, fault)) :
    ∃ segment ahead gone rest, text = segment ++ ahead ∧
      Interrupted place segment ahead gone rest fault (scanFrom place text) := by
  induction text using scan_induction generalizing place with
  | done =>
    rw [scanFrom_nil] at stopped
    cases stopped
  | blank c behind blank ih =>
    rw [scanFrom_blank place blank] at stopped ⊢
    obtain ⟨segment, ahead, gone, rest, rfl, starts, ended, result⟩ := ih stopped
    refine ⟨c :: segment, ahead, gone, rest, rfl, starts, ?_, ?_⟩
    · rw [scanFrom_blank place blank, ended]
    · rw [result, scanFrom_blank place blank]
      rfl
  | lexeme spelling lexeme behind spells fits ends ih =>
    rw [scanFrom_lexeme place spells fits ends] at stopped ⊢
    obtain ⟨segment, ahead, gone, rest, rfl, starts, ended, result⟩ := ih stopped
    have passed := scanFrom_lexeme place spells fits ends.take
    refine ⟨spelling ++ segment, ahead, gone, rest, by simp, starts, ?_, ?_⟩
    · rw [passed, ended]
    · rw [result, passed]
      simp [Position.past_append]
  | fault text fault passed behind starts =>
    rw [scanFrom_fault place starts] at stopped ⊢
    simp only [Option.some.injEq, Prod.mk.injEq] at stopped
    obtain ⟨-, rfl⟩ := stopped
    exact ⟨[], text, passed, behind, rfl, starts, by rw [scanFrom_nil], by rw [scanFrom_nil]; rfl⟩

theorem tokensFrom_ended (file source : String) {state : State} (ended : state.scan.stopped = none) :
    tokensFrom file source state = (.ok (state.scan.tokens file), state.scan.state) := by
  simp only [tokensFrom, ended]

theorem tokensFrom_stopped (file source : String) {state : State} (stopped : state.scan.stopped = some (place, fault)) :
    tokensFrom file source state =
      (.error (fault.diagnose file (state.scan.state.currentLine source) place), state.scan.state) := by
  simp only [tokensFrom, stopped]

-- What is said of a fault at a place of a text, with the line that the place is on.
def Reported (file text : String) (fault : Fault) (place : Position) (failure : Failure) : Prop :=
  ∃ line, Text.lineAt? (Text.lines text) place.line = some line ∧ failure = fault.diagnose file line place

-- A scan stands on the line that it has reached: the line is cut out of the whole text from the line start on, and is
-- the one of that number.
theorem currentLine_eq (split : text.toList = before ++ ahead) :
    Text.lineAt? (Text.lines text) (Position.start.past before).line =
      some (State.currentLine text ⟨Position.start.past before, rest⟩) :=
  Text.lineAt?_past before ahead split

theorem flat_of_fault (starts : Starts text (.fault fault gone rest)) : ∀ c ∈ gone, c ≠ '\n' := by
  intro c member feed
  subst feed
  cases starts with
  | tooLarge all | overlong all => exact absurd (all _ member) (by decide)
  | stray => cases member

-- A stopped scan is on the line of its fault.
theorem reported_of_stopped (split : text.toList = before ++ ahead)
    (stopped : (State.scan ⟨Position.start.past before, ahead⟩).stopped = some (place, fault)) :
    ∃ failure, Reported file text fault place failure ∧
      (tokensFrom file text ⟨Position.start.past before, ahead⟩).1 = .error failure := by
  obtain ⟨segment, offence, gone, rest, rfl, interrupted⟩ := scan_interrupted stopped
  have reached : State.scan ⟨Position.start.past before, segment ++ offence⟩ = _ := interrupted.result
  have stop : place = Position.start.past (before ++ segment) := by
    rw [reached, Option.some.injEq, Prod.mk.injEq] at stopped
    rw [← stopped.1, Position.past_append]
  have whole : text.toList = before ++ (segment ++ gone) ++ rest := by
    rw [split, interrupted.starts.split]
    simp
  have number : (Position.start.past (before ++ (segment ++ gone))).line = place.line := by
    rw [← List.append_assoc, Position.past_append _ (before ++ segment), ← stop]
    exact (place.past_on_line (flat_of_fault interrupted.starts)).1
  refine ⟨_, ⟨_, ?_, rfl⟩, congrArg Prod.fst (tokensFrom_stopped file text stopped)⟩
  rw [← number, reached]
  dsimp only
  rw [← Position.past_append]
  exact currentLine_eq whole

theorem tokenize_reported (stopped : (scanFrom .start text.toList).stopped = some (place, fault)) :
    ∃ failure, Reported file text fault place failure ∧ tokenize file text = .error failure := by
  have whole : text.toList = [] ++ text.toList := rfl
  exact reported_of_stopped whole stopped

theorem tokenize_placed (scanned : tokenize file text = .ok tokens) : Placed file [] text.toList tokens := by
  obtain ⟨placed, -⟩ := scan_placed file [] text.toList
  simp only [tokenize, tokensFrom, State.start, State.scan] at scanned
  split at scanned
  · rename_i ended
    cases scanned
    exact placed ended
  · cases scanned

-- What stops a scan stands where the scan stops.
theorem tokenize_stops {failure : Failure} (scanned : tokenize file text = .error failure) :
    ∃ place, ∃ fault : Fault, Reported file text fault place failure ∧
      Marks file text.toList (place.inFile file) (Stops fault) := by
  cases stopped : (State.start text).scan.stopped with
  | none =>
    rw [tokenize, tokensFrom_ended _ _ stopped] at scanned
    cases scanned
  | some stop =>
    obtain ⟨place, fault⟩ := stop
    obtain ⟨-, stops⟩ := scan_placed file [] text.toList
    obtain ⟨failure', reported, answered⟩ := tokenize_reported stopped
    cases scanned.symm.trans answered
    exact ⟨place, fault, reported, stops place fault stopped⟩

-- A name in front of a text is there to the letter and as a whole word.
theorem Leads.named (leads : Leads (.identifier name) ahead) :
    ∃ written after, name = some written ∧ written ≠ "" ∧ ahead = written.toList ++ after ∧
      ∀ c ∈ after.head?, isWordChar c = false := by
  obtain ⟨spelling, after, rfl, spells, ends⟩ := leads
  have read : name = some (String.ofList spelling) := by
    generalize same : Lexeme.identifier name = lexeme at spells
    cases spells with
    | number => cases same
    | mark found =>
      have member := mark?_eq_some_iff.mp found
      fin_cases member <;> cases same
    | word =>
      unfold word at same
      split_ifs at same
      cases same
      rfl
  refine ⟨String.ofList spelling, after, read, ?_, by rw [String.toList_ofList], ends⟩
  intro empty
  exact spells.ne_nil (by simpa using congrArg String.toList empty)

theorem Leads.valued (leads : Leads (.number value) ahead) : value ≠ none := by
  obtain ⟨spelling, after, -, spells, -⟩ := leads
  generalize same : Lexeme.number value = lexeme at spells
  cases spells with
  | number =>
    cases same
    simp
  | mark found =>
    have member := mark?_eq_some_iff.mp found
    fin_cases member <;> cases same
  | word =>
    unfold word at same
    split_ifs at same

end WordC.Scan
