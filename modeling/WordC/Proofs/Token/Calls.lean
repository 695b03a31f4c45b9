import WordC.Proofs.Token.Join
import WordC.Proofs.Token.Places

namespace WordC

namespace Position

-- On an earlier line, or further to the left on the same one.
def Before (first second : Position) : Prop :=
  first.line < second.line ∨ first.line = second.line ∧ first.column < second.column

theorem before_next (place : Position) (c : Char) : place.Before (place.next c) := by
  unfold Before next
  split <;> simp

theorem Before.trans {first second third : Position} (one : first.Before second) (two : second.Before third) :
    first.Before third := by
  unfold Before at *
  omega

theorem before_past (place : Position) (filled : passed ≠ []) : place.Before (place.past passed) := by
  induction passed generalizing place with
  | nil => exact absurd rfl filled
  | cons c passed ih =>
    cases passed with
    | nil => exact place.before_next c
    | cons d passed => exact (place.before_next c).trans (ih (place.next c) (List.cons_ne_nil _ _))

theorem not_past_before (place : Position) (passed : List Char) : ¬(place.past passed).Before place := by
  cases passed with
  | nil =>
    unfold Before past
    simp
  | cons c passed =>
    have further := place.before_past (List.cons_ne_nil c passed)
    unfold Before at *
    omega

theorem inFile_eq_iff {place place' : Position} :
    place.inFile file = place'.inFile file ↔ place.line = place'.line ∧ place.column = place'.column := by
  simp only [inFile, Location.mk.injEq, true_and, Int.natCast_inj]

-- A place of a piece of text, counted from where the piece begins.
def within (base place : Position) : Position :=
  ⟨base.line + (place.line - 1), if place.line = 1 then base.column + (place.column - 1) else place.column,
    base.offset + place.offset, if place.line = 1 then base.lineStart else base.offset + place.lineStart⟩

theorem past_eq_within (base : Position) (passed : List Char) : base.past passed = base.within (start.past passed) := by
  induction passed using List.reverseRecOn with
  | nil => rfl
  | append_singleton passed c ih =>
    rw [past_append, past_append, ih, past_start]
    by_cases feed : c = '\n'
    · subst feed
      simp [past, next, within, Nat.add_assoc, Nat.add_comm 1]
    · simp only [past, next, within, List.foldl_cons, List.foldl_nil, feed, if_false, mk.injEq, true_and]
      split <;> simp only [Nat.add_assoc, and_true]
      omega

end Position

namespace Scan

-- What is found in a piece of text, with its places in the whole.
def Result.within (base : Position) (result : Result) : Result :=
  ⟨result.found.map (Prod.map base.within id), result.stopped.map (Prod.map base.within id),
    ⟨base.within result.state.place, result.state.rest⟩⟩

theorem scanFrom_within (base : Position) (before text : List Char) :
    scanFrom (base.past before) text = (scanFrom (Position.start.past before) text).within base := by
  induction text using scan_induction generalizing before with
  | done => simp [scanFrom_nil, Result.within, ← Position.past_eq_within]
  | blank c rest blank ih =>
    have further := ih (before ++ [c])
    rw [Position.past_append, Position.past_append] at further
    rw [scanFrom_blank _ blank, scanFrom_blank _ blank]
    exact further
  | lexeme spelling lexeme rest spells fits ends ih =>
    have further := ih (before ++ spelling)
    rw [Position.past_append, Position.past_append] at further
    rw [scanFrom_lexeme _ spells fits ends, scanFrom_lexeme _ spells fits ends, further]
    simp [Result.within, ← Position.past_eq_within]
  | fault text fault passed rest starts =>
    rw [scanFrom_fault _ starts, scanFrom_fault _ starts]
    simp [Result.within, ← Position.past_eq_within, ← Position.past_append]

-- A scan that is not stopped passes the whole text.
theorem scan_ended (ended : (scanFrom place text).stopped = none) :
    (scanFrom place text).state = ⟨place.past text, []⟩ := by
  have passed : scanFrom place (text ++ []) = _ := scanFrom_append ended nofun
  rw [List.append_nil, scanFrom_nil] at passed
  rw [passed]

-- However a scan ends, its state is what lies behind a part of the text.
theorem scan_state (place : Position) (text : List Char) :
    ∃ gone, text = gone ++ (scanFrom place text).state.rest ∧ (scanFrom place text).state.place = place.past gone := by
  cases stopped : (scanFrom place text).stopped with
  | none =>
    rw [scan_ended stopped]
    exact ⟨text, by simp, rfl⟩
  | some stop =>
    obtain ⟨segment, ahead, gone, rest, rfl, interrupted⟩ := scan_interrupted stopped
    rw [interrupted.result]
    exact ⟨segment ++ gone, by simp [interrupted.starts.split], rfl⟩

-- What a scan finds stands between where it begins and where it ends.
theorem scan_between (place : Position) (text : List Char) :
    ∀ entry ∈ (scanFrom place text).found,
      ¬entry.1.Before place ∧ entry.1.Before (scanFrom place text).state.place := by
  induction text using scan_induction generalizing place with
  | done => simp [scanFrom_nil]
  | blank c rest blank ih =>
    rw [scanFrom_blank place blank]
    intro entry member
    obtain ⟨low, high⟩ := ih (place.next c) entry member
    refine ⟨fun early => low (early.trans (place.before_next c)), high⟩
  | lexeme spelling lexeme rest spells fits ends ih =>
    rw [scanFrom_lexeme place spells fits ends]
    have further := place.before_past spells.ne_nil
    intro entry member
    rcases List.mem_cons.mp member with rfl | later
    · obtain ⟨gone, -, reached⟩ := scan_state (place.past spelling) rest
      simp only [reached]
      rw [← Position.past_append]
      refine ⟨place.not_past_before [], place.before_past ?_⟩
      exact List.append_ne_nil_of_left_ne_nil spells.ne_nil gone
    · obtain ⟨low, high⟩ := ih (place.past spelling) entry later
      exact ⟨fun early => low (early.trans further), high⟩
  | fault text fault passed rest starts => simp [scanFrom_fault place starts]

-- One call after the other

-- Where the scan of a text stands after a number of calls.
def stateAfter (file text : String) : Nat → State
  | 0 => .start text
  | calls + 1 => (tokensFrom file text (stateAfter file text calls)).2

-- What the next call answers.
def answerAfter (file text : String) (calls : Nat) : Except Failure (List Token) :=
  (tokensFrom file text (stateAfter file text calls)).1

theorem stateAfter_succ (file text : String) (calls : Nat) :
    stateAfter file text (calls + 1) = (stateAfter file text calls).scan.state := by
  rw [stateAfter]
  cases stopped : (stateAfter file text calls).scan.stopped with
  | none => rw [tokensFrom_ended _ _ stopped]
  | some stop => rw [tokensFrom_stopped _ _ stopped]

-- The state is always what lies behind a part of the text, at the place that this part leads to.
theorem stateAfter_split (file text : String) (calls : Nat) :
    ∃ earlier ahead, text.toList = earlier ++ ahead ∧
      stateAfter file text calls = ⟨Position.start.past earlier, ahead⟩ := by
  induction calls with
  | zero => exact ⟨[], text.toList, rfl, rfl⟩
  | succ calls ih =>
    obtain ⟨earlier, ahead, split, state⟩ := ih
    obtain ⟨gone, rest, reached⟩ := scan_state (Position.start.past earlier) ahead
    rw [stateAfter_succ, state]
    refine ⟨earlier ++ gone, (scanFrom (Position.start.past earlier) ahead).state.rest, ?_, ?_⟩
    · rw [split, List.append_assoc, ← rest]
    · rw [Position.past_append, ← reached]
      rfl

-- A state that a scan does not leave is never left.
theorem stateAfter_fixed (fixed : state.scan.state = state) (reached : stateAfter file text calls = state)
    (later : calls ≤ more) : stateAfter file text more = state := by
  induction later with
  | refl => exact reached
  | step _ ih => rw [stateAfter_succ, ih, fixed]

theorem place_not_before (file text : String) {calls more : Nat} (later : calls ≤ more) :
    ¬(stateAfter file text more).place.Before (stateAfter file text calls).place := by
  induction later with
  | refl => exact Position.not_past_before _ []
  | @step more _ ih =>
    obtain ⟨gone, -, reached⟩ := scan_state (stateAfter file text more).place (stateAfter file text more).rest
    have further := Position.not_past_before (stateAfter file text more).place gone
    rw [stateAfter_succ, State.scan, reached]
    unfold Position.Before at *
    omega

-- Two calls do not find the same token.
theorem tokens_apart (file text : String) {calls more : Nat} (later : calls < more) :
    ∀ token ∈ (stateAfter file text calls).scan.tokens file,
      token ∉ (stateAfter file text more).scan.tokens file := by
  intro token found again
  simp only [Result.tokens, List.mem_map] at found again
  obtain ⟨entry, member, rfl⟩ := found
  obtain ⟨entry', member', same⟩ := again
  obtain ⟨line, column⟩ := Position.inFile_eq_iff.mp (congrArg Token.location same)
  obtain ⟨-, high⟩ := scan_between _ _ entry member
  obtain ⟨low, -⟩ := scan_between _ _ entry' member'
  have order := place_not_before file text (Nat.succ_le_of_lt later)
  rw [stateAfter_succ] at order
  unfold Position.Before State.scan at *
  omega

-- An answer on a piece of a text and the answer on the text from where the piece begins: the same tokens or the same
-- fault, in the second one with the places and the lines of the whole text.
inductive Continues (file text : String) (base : Position) (piece : String) :
    Except Failure (List Token) → Except Failure (List Token) → Prop where
  | tokens (found : List (Position × Lexeme)) :
      Continues file text base piece (.ok (found.map fun entry => ⟨entry.2, entry.1.inFile file⟩))
        (.ok (found.map fun entry => ⟨entry.2, (base.within entry.1).inFile file⟩))
  | fault (fault : Fault) (place : Position) (failure failure' : Failure) : Reported file piece fault place failure →
      Reported file text fault (base.within place) failure' →
      Continues file text base piece (.error failure) (.error failure')

theorem tokensFrom_continues (file : String) (split : text.toList = earlier ++ ahead) :
    Continues file text (Position.start.past earlier) (String.ofList ahead) (tokenize file (String.ofList ahead))
      (tokensFrom file text ⟨Position.start.past earlier, ahead⟩).1 := by
  have piece : (State.start (String.ofList ahead)).scan = scanFrom .start ahead := by
    simp [State.start, State.scan]
  have whole : State.scan ⟨Position.start.past earlier, ahead⟩ =
      (scanFrom .start ahead).within (Position.start.past earlier) := scanFrom_within _ [] ahead
  cases stopped : (scanFrom .start ahead).stopped with
  | none =>
    rw [tokenize, tokensFrom_ended _ _ (piece ▸ stopped), tokensFrom_ended _ _ (by simp [whole, Result.within, stopped]),
      piece, whole]
    simpa [Result.tokens, Result.within, Function.comp_def] using Continues.tokens (scanFrom .start ahead).found
  | some stop =>
    obtain ⟨place, fault⟩ := stop
    have moved : (State.scan ⟨Position.start.past earlier, ahead⟩).stopped =
        some ((Position.start.past earlier).within place, fault) := by
      simp [whole, Result.within, stopped]
    have alone : (scanFrom .start (String.ofList ahead).toList).stopped = some (place, fault) := by simpa using stopped
    obtain ⟨failure, reported, answered⟩ := tokenize_reported alone
    obtain ⟨failure', reported', answered'⟩ := reported_of_stopped split moved
    rw [answered, answered']
    exact .fault fault place failure failure' reported reported'

-- A run of digits that is refused: its value is too large, or it is too long to be looked at.
inductive Refused : Fault → List Char → Prop where
  | tooLarge : Refused (.literalTooLarge (String.ofList digits)) digits
  | overlong : Refused (.overlongDigitRun digits.length) digits

-- The tokens that a call finds in a segment before it stops are returned by no later call.
def Dropped (file text : String) (calls : Nat) (earlier segment : List Char) : Prop :=
  ∃ dropped, (tokensFrom file text ⟨Position.start.past earlier, segment⟩).1 = .ok dropped ∧
    Placed file earlier segment dropped ∧
    ∀ more tokens, calls < more → answerAfter file text more = .ok tokens → ∀ token ∈ dropped, token ∉ tokens

-- What the call after a number of others does. It returns all tokens that are left, and nothing is left for later
-- calls. Or it stops behind a run of digits, from where the next call goes on. Or it stops before a stray character,
-- and so do all later calls.
inductive Call (file text : String) (calls : Nat) : Prop where
  | returns (earlier ahead : List Char) (tokens : List Token) :
      text.toList = earlier ++ ahead →
      stateAfter file text calls = ⟨Position.start.past earlier, ahead⟩ →
      answerAfter file text calls = .ok tokens →
      Placed file earlier ahead tokens →
      (∀ more, calls < more → answerAfter file text more = .ok []) →
      Call file text calls
  | passes (earlier segment digits rest : List Char) (fault : Fault) (failure : Failure) :
      text.toList = earlier ++ segment ++ digits ++ rest →
      stateAfter file text calls = ⟨Position.start.past earlier, segment ++ digits ++ rest⟩ →
      digits ≠ [] → (∀ c ∈ digits, c.isDigit) → (∀ c ∈ rest.head?, c.isDigit = false) →
      Refused fault digits →
      answerAfter file text calls = .error failure →
      Reported file text fault (Position.start.past (earlier ++ segment)) failure →
      stateAfter file text (calls + 1) = ⟨Position.start.past (earlier ++ segment ++ digits), rest⟩ →
      Continues file text (Position.start.past (earlier ++ segment ++ digits)) (String.ofList rest)
        (tokenize file (String.ofList rest)) (answerAfter file text (calls + 1)) →
      Dropped file text calls earlier segment →
      Call file text calls
  | stays (earlier segment : List Char) (c : Char) (rest : List Char) (failure : Failure) :
      text.toList = earlier ++ segment ++ c :: rest →
      stateAfter file text calls = ⟨Position.start.past earlier, segment ++ c :: rest⟩ →
      answerAfter file text calls = .error failure →
      Reported file text (.strayCharacter c) (Position.start.past (earlier ++ segment)) failure →
      stateAfter file text (calls + 1) = ⟨Position.start.past (earlier ++ segment), c :: rest⟩ →
      (∀ more, calls < more → answerAfter file text more = answerAfter file text calls) →
      Dropped file text calls earlier segment →
      Call file text calls

theorem tokens_of_answerAfter (answered : answerAfter file text calls = .ok tokens) :
    (stateAfter file text calls).scan.stopped = none ∧ tokens = (stateAfter file text calls).scan.tokens file := by
  unfold answerAfter at answered
  cases stopped : (stateAfter file text calls).scan.stopped with
  | none =>
    rw [tokensFrom_ended _ _ stopped] at answered
    exact ⟨rfl, (Except.ok.inj answered).symm⟩
  | some stop =>
    rw [tokensFrom_stopped _ _ stopped] at answered
    cases answered

theorem dropped_of_interrupted {segment : List Char}
    (reached : stateAfter file text calls = ⟨Position.start.past earlier, ahead⟩)
    (interrupted : Interrupted (Position.start.past earlier) segment offence gone rest fault
      (scanFrom (Position.start.past earlier) ahead)) :
    Dropped file text calls earlier segment := by
  have ended : (State.scan ⟨Position.start.past earlier, segment⟩).stopped = none := interrupted.ended
  refine ⟨_, congrArg Prod.fst (tokensFrom_ended file text ended),
    (scan_placed file earlier segment).1 ended, ?_⟩
  intro more tokens later answered token member
  obtain ⟨-, rfl⟩ := tokens_of_answerAfter answered
  apply tokens_apart file text later
  rw [reached]
  simpa [State.scan, Result.tokens, interrupted.result] using member

-- What is answered in a state that is not left is answered for good.
theorem answerAfter_fixed (fixed : state.scan.state = state) (reached : stateAfter file text (calls + 1) = state)
    (later : calls < more) : answerAfter file text more = (tokensFrom file text state).1 := by
  rw [answerAfter, stateAfter_fixed fixed reached later]

section

variable {file text : String} {calls : Nat} {earlier ahead : List Char}

theorem call_returns (split : text.toList = earlier ++ ahead)
    (reached : stateAfter file text calls = ⟨Position.start.past earlier, ahead⟩)
    (ended : (scanFrom (Position.start.past earlier) ahead).stopped = none) : Call file text calls := by
  have scanned : (State.scan ⟨Position.start.past earlier, ahead⟩).stopped = none := ended
  have next : stateAfter file text (calls + 1) = ⟨(Position.start.past earlier).past ahead, []⟩ := by
    rw [stateAfter_succ, reached]
    exact scan_ended ended
  refine .returns earlier ahead _ split reached ?_ ((scan_placed file earlier ahead).1 ended) ?_
  · rw [answerAfter, reached, tokensFrom_ended _ _ scanned]
    rfl
  · intro more later
    rw [answerAfter_fixed ?_ next later, tokensFrom_ended]
    · simp [State.scan, scanFrom_nil, Result.tokens]
    · simp [State.scan, scanFrom_nil]
    · simp [State.scan, scanFrom_nil]

theorem call_interrupted {segment : List Char} (split : text.toList = earlier ++ (segment ++ offence))
    (reached : stateAfter file text calls = ⟨Position.start.past earlier, segment ++ offence⟩)
    (interrupted : Interrupted (Position.start.past earlier) segment offence gone rest fault
      (scanFrom (Position.start.past earlier) (segment ++ offence))) : Call file text calls := by
  have stopped : (State.scan ⟨Position.start.past earlier, segment ++ offence⟩).stopped =
      some (Position.start.past (earlier ++ segment), fault) := by
    rw [State.scan, interrupted.result, Position.past_append Position.start]
  obtain ⟨failure, reported, answered⟩ : ∃ failure,
      Reported file text fault (Position.start.past (earlier ++ segment)) failure ∧
        answerAfter file text calls = .error failure := by
    rw [answerAfter, reached]
    exact reported_of_stopped split stopped
  have next : stateAfter file text (calls + 1) = ⟨Position.start.past (earlier ++ segment ++ gone), rest⟩ := by
    rw [stateAfter_succ, reached, State.scan, interrupted.result, List.append_assoc,
      Position.past_append Position.start]
  have dropped := dropped_of_interrupted reached interrupted
  have resumed : Continues file text (Position.start.past (earlier ++ segment ++ gone)) (String.ofList rest)
      (tokenize file (String.ofList rest)) (answerAfter file text (calls + 1)) := by
    rw [answerAfter, next]
    apply tokensFrom_continues
    rw [split, interrupted.starts.split]
    simp
  have starts := interrupted.starts
  cases starts with
  | tooLarge all stop _ large =>
    exact .passes earlier segment gone rest _ failure (by simpa using split) (by simpa using reached)
      (ne_nil_of_tooLarge large) all stop .tooLarge answered reported next resumed dropped
  | overlong all stop long =>
    exact .passes earlier segment gone rest _ failure (by simpa using split) (by simpa using reached)
      (List.ne_nil_of_length_pos (Nat.zero_lt_of_lt long)) all stop .overlong answered reported next resumed dropped
  | @stray c rest =>
    rw [List.append_nil] at next
    have again := scanFrom_fault (Position.start.past (earlier ++ segment)) interrupted.starts
    refine .stays earlier segment c rest failure (by simpa using split) reached answered reported next ?_ dropped
    intro more later
    have stuck : State.scan ⟨Position.start.past (earlier ++ segment), c :: rest⟩ = _ := again
    have fixed := congrArg Result.state stuck
    rw [answerAfter_fixed fixed next later, answerAfter, reached, tokensFrom_stopped _ _ stopped,
      tokensFrom_stopped _ _ (congrArg Result.stopped stuck), fixed]
    rw [stateAfter_succ, reached] at next
    rw [next]
    rfl

end

-- A state in the middle of a text, told by its offset: what is left, the line, the column and the line start are all
-- those of the offset, and the line that the state is on is the line of that number.
structure Consistent (text : String) (state : State) : Prop where
  inside : state.place.offset ≤ text.toList.length
  rest : state.rest = text.toList.drop state.place.offset
  line : state.place.line = 1 + (text.toList.take state.place.offset).count '\n'
  column : state.place.lineStart + state.place.column = state.place.offset + 1
  lineStart : 0 < state.place.lineStart → text.toList[state.place.lineStart - 1]? = some '\n'
  unbroken : '\n' ∉ Text.slice text.toList state.place.lineStart state.place.offset
  shown : Text.lineAt? (Text.lines text) state.place.line = some (state.currentLine text)

theorem consistent_of_split (split : text.toList = before ++ ahead) :
    Consistent text ⟨Position.start.past before, ahead⟩ := by
  obtain ⟨earlier, since, whole, since_eq, flat, feed, start⟩ := Text.split_at_lineStart before
  have offset : (Position.start.past before).offset = before.length := by rw [Position.past_start]
  have column : (Position.start.past before).column = 1 + since.length := by
    rw [Position.past_start, since_eq, List.length_reverse]
  refine ⟨?_, ?_, ?_, ?_, ?_, ?_, currentLine_eq split⟩
  · simp [offset, split]
  · simp [offset, split]
  · simp [split, Position.past_start]
  · have length := congrArg List.length whole
    rw [List.length_append] at length
    simp only [start, column, offset]
    omega
  · intro positive
    simp only [start] at positive ⊢
    have last := List.getLast?_eq_some_getLast (List.ne_nil_of_length_pos positive)
    rw [split, whole, List.append_assoc, List.getElem?_append_left (Nat.sub_one_lt_of_lt positive),
      ← List.getLast?_eq_getElem?, last, feed _ last]
  · simp only [start, offset, Text.slice, split, List.take_left]
    rw [whole, List.drop_left]
    exact fun member => flat _ member rfl

-- Every call is of one of these kinds and begins in a consistent state, and no token is returned by two calls.
theorem successive_calls (file text : String) (calls : Nat) :
    Consistent text (stateAfter file text calls) ∧ Call file text calls ∧
      ∀ more tokens tokens', more ≠ calls → answerAfter file text calls = .ok tokens →
        answerAfter file text more = .ok tokens' → ∀ token ∈ tokens, token ∉ tokens' := by
  obtain ⟨earlier, ahead, split, reached⟩ := stateAfter_split file text calls
  refine ⟨reached ▸ consistent_of_split split, ?_, ?_⟩
  · cases stopped : (scanFrom (Position.start.past earlier) ahead).stopped with
    | none => exact call_returns split reached stopped
    | some stop =>
      obtain ⟨segment, offence, gone, rest, rfl, interrupted⟩ := scan_interrupted stopped
      exact call_interrupted split reached interrupted
  · intro more tokens tokens' other answered answered' token member member'
    obtain ⟨-, rfl⟩ := tokens_of_answerAfter answered
    obtain ⟨-, rfl⟩ := tokens_of_answerAfter answered'
    rcases Nat.lt_or_gt_of_ne other with earlier | later
    · exact tokens_apart file text earlier token member' member
    · exact tokens_apart file text later token member member'

def oneTooLarge : String := "x 99999999999999999999\n y"

theorem oneTooLarge_calls :
    answerAfter "l.c" oneTooLarge 0 = .error (.diagnostic ⟨.literalTooLarge "99999999999999999999",
      some ⟨"l.c", 1, 3⟩, some "x 99999999999999999999", false⟩) ∧
    ∃ tokens, answerAfter "l.c" oneTooLarge 1 = .ok tokens ∧ tokens = [⟨.identifier (some "y"), ⟨"l.c", 2, 2⟩⟩] ∧
      answerAfter "l.c" oneTooLarge 2 = .ok [] ∧ Consistent oneTooLarge ⟨⟨1, 23, 22, 0⟩, "\n y".toList⟩ ∧
      Call "l.c" oneTooLarge 1 ∧ ∀ token ∈ tokens, token ∉ [] := by
  have second : answerAfter "l.c" oneTooLarge 1 = .ok [⟨.identifier (some "y"), ⟨"l.c", 2, 2⟩⟩] := by decide +kernel
  have third : answerAfter "l.c" oneTooLarge 2 = .ok [] := by decide +kernel
  have reached : stateAfter "l.c" oneTooLarge 1 = ⟨⟨1, 23, 22, 0⟩, "\n y".toList⟩ := by decide +kernel
  obtain ⟨consistent, call, once⟩ := successive_calls "l.c" oneTooLarge 1
  exact ⟨by decide +kernel, _, second, rfl, third, reached ▸ consistent, call, once 2 _ [] (by decide) second third⟩

end Scan

end WordC
