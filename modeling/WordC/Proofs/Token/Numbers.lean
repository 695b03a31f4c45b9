import WordC.Proofs.Token.Blocks
import WordC.Proofs.Token.Calls

namespace WordC.Scan

-- A text that ends with no letter and no digit ends with no lexeme that could go on.
theorem ends_of_closed (closed : ∀ c ∈ text.getLast?, isWordChar c = false) (split : text = earlier ++ spelling)
    (spells : Spells spelling lexeme) (rest : List Char) : Ends lexeme rest := by
  have last : ¬∀ c ∈ spelling, isWordChar c := by
    intro all
    have last := List.getLast?_eq_some_getLast spells.ne_nil
    have char := all _ (List.getLast_mem spells.ne_nil)
    have other := closed (spelling.getLast spells.ne_nil) (by simp [split, last])
    simp [char] at other
  cases spells with
  | number _ all => exact absurd (fun c member => word_of_digit (all c member)) last
  | mark found => exact fun c _ => goesOn_mark found c
  | word letter all => exact (last (List.forall_mem_cons.mpr ⟨word_of_letter letter, all⟩)).elim

-- A run of digits that is as long as it can be, behind a text that is read without a fault and does not reach into it.
structure Run (base : Position) (before digits rest : List Char) : Prop where
  ended : (scanFrom base before).stopped = none
  starts : ∀ c ∈ before.getLast?, c.isAlphanum = false
  filled : digits ≠ []
  all : ∀ c ∈ digits, c.isDigit
  stops : ∀ c ∈ rest.head?, c.isDigit = false

namespace Run

variable {base : Position} {before digits rest : List Char}

-- What comes before a run does not change how it is read.
theorem scan_eq (run : Run base before digits rest) :
    scanFrom base (before ++ (digits ++ rest)) = { scanFrom (base.past before) (digits ++ rest) with
      found := (scanFrom base before).found ++ (scanFrom (base.past before) (digits ++ rest)).found } := by
  apply scanFrom_append_of_ends run.ended
  intro earlier spelling lexeme split spells
  exact ends_of_closed (by simpa [isWordChar_eq] using run.starts) split spells _

theorem tokensFrom_small (run : Run base before digits rest) (file source : String)
    (short : digits.length ≤ longestDigitRun) (small : decimal digits ≤ largestLiteral) :
    (tokensFrom file source ⟨base, before ++ (digits ++ rest)⟩).1 =
      (tokensFrom file source ⟨(base.past before).past digits, rest⟩).1.map fun later =>
        (scanFrom base before).tokens file ++
          ⟨.number (some (decimal digits)), (base.past before).inFile file⟩ :: later := by
  have whole := run.scan_eq
  rw [scanFrom_lexeme _ (.number run.filled run.all) ⟨short, small⟩ run.stops] at whole
  simp only [tokensFrom, State.scan, whole]
  cases (scanFrom ((base.past before).past digits) rest).stopped with
  | none => simp [Result.tokens, Except.map]
  | some stop => rfl

theorem tokensFrom_fault (run : Run base before digits rest) (file source : String)
    (starts : Starts (digits ++ rest) (.fault fault passed behind)) :
    (tokensFrom file source ⟨base, before ++ (digits ++ rest)⟩).1 =
      .error (fault.diagnose file (State.currentLine source ⟨base.past before, digits ++ rest⟩) (base.past before)) := by
  have whole := run.scan_eq
  rw [scanFrom_fault _ starts] at whole
  obtain ⟨-, start⟩ := (base.past before).past_on_line (flat_of_fault starts)
  simp only [tokensFrom, State.scan, whole, State.currentLine, start]

end Run

-- A number is told by its length first: a run of more than 4300 digits is refused whatever its value. Of all others
-- the value alone decides. What is shown with one that is too large is the line of the text that it stands on.
theorem digit_run_classified (file source : String) (run : Run base before digits rest)
    {earlier : List Token} (scanned : (tokensFrom file source ⟨base, before⟩).1 = .ok earlier) :
    let answer := (tokensFrom file source ⟨base, before ++ (digits ++ rest)⟩).1
    let here := base.past before
    let line := State.currentLine source ⟨here, digits ++ rest⟩
    (digits.length ≤ 4300 → literalValue digits ≤ 18446744073709551615 →
      answer = (tokensFrom file source ⟨here.past digits, rest⟩).1.map fun later =>
        earlier ++ ⟨.number (some (literalValue digits)), here.inFile file⟩ :: later) ∧
    (digits.length ≤ 4300 → 18446744073709551615 < literalValue digits →
      answer = .error
        (.diagnostic ⟨.literalTooLarge (String.ofList digits), some (here.inFile file), some line, false⟩)) ∧
    (4300 < digits.length → answer = .error (.overlongDigitRun digits.length)) ∧
    ∀ passed, source.toList = passed ++ (before ++ (digits ++ rest)) → base = Position.start.past passed →
      Text.lineAt? (Text.lines source) here.line = some line := by
  rw [literalValue, ← decimal_eq]
  have found : earlier = (scanFrom base before).tokens file := by
    have ended : (State.scan ⟨base, before⟩).stopped = none := run.ended
    rw [tokensFrom_ended file source ended] at scanned
    exact (Except.ok.inj scanned).symm
  refine ⟨fun short small => ?_, fun short large => ?_, fun long => ?_, fun passed split reached => ?_⟩
  · rw [found]
    exact run.tokensFrom_small file source short small
  · exact run.tokensFrom_fault file source (.tooLarge run.all run.stops short large)
  · exact run.tokensFrom_fault file source (.overlong run.all run.stops long)
  · rw [reached, ← Position.past_append]
    rw [← List.append_assoc] at split
    exact currentLine_eq split

-- Zeros in front are allowed, and a number can stand right before a word.
theorem paddedLargest_classified :
    Run .start ['x', '='] "00018446744073709551615".toList ['i', 'n', 't'] ∧
      (tokensFrom "m.c" "x=00018446744073709551615int"
          ⟨.start, ['x', '='] ++ ("00018446744073709551615".toList ++ ['i', 'n', 't'])⟩).1 =
        (tokensFrom "m.c" "x=00018446744073709551615int" ⟨⟨1, 26, 25, 0⟩, ['i', 'n', 't']⟩).1.map fun later =>
          [⟨.identifier (some "x"), ⟨"m.c", 1, 1⟩⟩, ⟨.operator (some "="), ⟨"m.c", 1, 2⟩⟩] ++
            ⟨.number (some 18446744073709551615), ⟨"m.c", 1, 3⟩⟩ :: later := by
  have run : Run .start ['x', '='] "00018446744073709551615".toList ['i', 'n', 't'] :=
    ⟨by decide +kernel, by simp, by decide, List.all_eq_true.mp (by decide), by simp⟩
  have scanned : (tokensFrom "m.c" "x=00018446744073709551615int" ⟨.start, ['x', '=']⟩).1 =
      .ok [⟨.identifier (some "x"), ⟨"m.c", 1, 1⟩⟩, ⟨.operator (some "="), ⟨"m.c", 1, 2⟩⟩] := by
    decide +kernel
  obtain ⟨small, -⟩ := digit_run_classified "m.c" "x=00018446744073709551615int" run scanned
  exact ⟨run, small (by decide) (by decide)⟩

theorem literalValue_zeros (count : Nat) (digits : List Char) :
    literalValue (List.replicate count '0' ++ digits) = literalValue digits := by
  induction count with
  | zero => rfl
  | succ count ih =>
    rw [← ih]
    simp [literalValue, Nat.ofDigitChars, List.replicate_succ]

-- A number with a small value, written with zeros in front.
def paddedSeven (zeros : Nat) : List Char := List.replicate zeros '0' ++ ['7']

theorem literalValue_paddedSeven (zeros : Nat) : literalValue (paddedSeven zeros) = 7 := literalValue_zeros zeros ['7']

theorem tokenize_paddedSeven (file : String) (long : longestDigitRun ≤ zeros) :
    tokenize file (String.ofList (paddedSeven zeros)) = .error (.overlongDigitRun (zeros + 1)) := by
  have length : (paddedSeven zeros).length = zeros + 1 := by simp [paddedSeven]
  have all : ∀ c ∈ paddedSeven zeros, isDigit c := by
    intro c member
    rcases List.mem_append.mp member with zero | seven
    · rw [List.eq_of_mem_replicate zero]
      rfl
    · rw [List.mem_singleton.mp seven]
      rfl
  have starts : Starts (paddedSeven zeros ++ []) _ := .overlong all nofun (by rw [length]; omega)
  have scanned := scanFrom_fault .start starts
  rw [List.append_nil, length] at scanned
  simp only [tokenize, tokensFrom, State.start, State.scan, String.toList_ofList, scanned]
  rfl

-- The value would fit, and yet the literal is refused.
theorem paddedSeven_refused :
    literalValue (paddedSeven 4300) ≤ 18446744073709551615 ∧
      tokenize "<input>" (String.ofList (paddedSeven 4300)) = .error (.overlongDigitRun 4301) := by
  rw [literalValue_paddedSeven]
  exact ⟨by decide, tokenize_paddedSeven "<input>" (Nat.le_refl _)⟩

end WordC.Scan
