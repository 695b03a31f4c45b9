import Mathlib.Data.List.TakeWhile
import Mathlib.Tactic.FinCases
import WordC.Token.Scan

namespace WordC.Scan

-- Characters that write a lexeme. A number can be written with zeros in front.
inductive Spells : List Char → Lexeme → Prop where
  | number : digits ≠ [] → (∀ c ∈ digits, isDigit c) → Spells digits (.number (some (decimal digits)))
  | mark : mark? c = some lexeme → Spells [c] lexeme
  | word : isLetter c → (∀ d ∈ more, isWordChar d) → Spells (c :: more) (word (String.ofList (c :: more)))

-- A number goes on with a digit and a word with a letter or a digit.
def goesOn : Lexeme → Char → Bool
  | .number _, c => isDigit c
  | .identifier _, c | .typeName _, c | .ret _, c => isWordChar c
  | _, _ => false

def Ends (lexeme : Lexeme) (rest : List Char) : Prop := ∀ c ∈ rest.head?, goesOn lexeme c = false

-- A number is read if neither its length nor its value is too large.
def Fits (spelling : List Char) : Lexeme → Prop
  | .number _ => spelling.length ≤ longestDigitRun ∧ decimal spelling ≤ largestLiteral
  | _ => True

-- Everything that can stand at the front of a text.
inductive Starts : List Char → Front → Prop where
  | done : Starts [] .done
  | blank : isBlank c → Starts (c :: rest) (.blank c rest)
  | lexeme : Spells spelling lexeme → Fits spelling lexeme → Ends lexeme rest →
      Starts (spelling ++ rest) (.lexeme lexeme spelling rest)
  | tooLarge : (∀ c ∈ digits, isDigit c) → (∀ c ∈ rest.head?, isDigit c = false) →
      digits.length ≤ longestDigitRun → largestLiteral < decimal digits →
      Starts (digits ++ rest) (.fault (.literalTooLarge (String.ofList digits)) digits rest)
  | overlong : (∀ c ∈ digits, isDigit c) → (∀ c ∈ rest.head?, isDigit c = false) →
      longestDigitRun < digits.length →
      Starts (digits ++ rest) (.fault (.overlongDigitRun digits.length) digits rest)
  | stray : isBlank c = false → isWordChar c = false → mark? c = none →
      Starts (c :: rest) (.fault (.strayCharacter c) [] (c :: rest))

-- The marks, each with the lexeme that it is.
def marks : List (Char × Lexeme) :=
  [('+', .operator (some "+")), ('*', .operator (some "*")), ('=', .operator (some "=")),
    ('\x7b', .bracket (some "\x7b")), ('\x7d', .bracket (some "\x7d")), ('(', .parenthesis (some "(")),
    (')', .parenthesis (some ")")), (',', .comma none), (';', .semicolon none)]

theorem mark?_eq_some_iff : mark? c = some lexeme ↔ (c, lexeme) ∈ marks := by
  constructor
  · intro found
    unfold mark? at found
    simp only [Bool.or_eq_true, decide_eq_true_eq, or_assoc] at found
    split_ifs at found with isOperator isBracket isParenthesis isComma isSemicolon
    · rcases isOperator with rfl | rfl | rfl <;> cases found <;> decide
    · rcases isBracket with rfl | rfl <;> cases found <;> decide
    · rcases isParenthesis with rfl | rfl <;> cases found <;> decide
    · subst isComma
      cases found
      decide
    · subst isSemicolon
      cases found
      decide
  · intro member
    fin_cases member <;> decide

theorem isBlank_iff : isBlank c ↔ c ∈ [' ', '\t', '\r', '\n'] := by
  simp [isBlank, or_assoc]

theorem isDigit_eq (c : Char) : isDigit c = c.isDigit := rfl

theorem isLetter_eq (c : Char) : isLetter c = c.isAlpha := by
  delta Char.isAlpha Char.isUpper Char.isLower
  simp only [isLetter, Bool.decide_and, Bool.or_comm]
  rfl

theorem isWordChar_eq (c : Char) : isWordChar c = c.isAlphanum := by
  simp only [isWordChar, Char.isAlphanum, isLetter_eq, isDigit_eq]

theorem decimal_eq (digits : List Char) : decimal digits = Nat.ofDigitChars 10 digits 0 := by
  simp only [decimal, Nat.ofDigitChars, Nat.mul_comm]

theorem not_digit_of_letter (letter : isLetter c) : isDigit c = false := by
  simp only [isLetter, isDigit, Char.le_def, UInt32.le_iff_toNat_le, Bool.or_eq_true, Bool.and_eq_true,
    decide_eq_true_eq, Bool.and_eq_false_iff, decide_eq_false_iff_not] at letter ⊢
  have nine : '9'.val.toNat = 57 := rfl
  have upper : 'A'.val.toNat = 65 := rfl
  have lower : 'a'.val.toNat = 97 := rfl
  omega

theorem word_of_digit (digit : isDigit c) : isWordChar c := by
  simp [isWordChar, digit]

theorem word_of_letter (letter : isLetter c) : isWordChar c := by
  simp [isWordChar, letter]

theorem not_digit_of_not_word (other : isWordChar c = false) : isDigit c = false :=
  (Bool.or_eq_false_iff.mp other).2

theorem not_word_of_blank (blank : isBlank c) : isWordChar c = false := by
  have member := isBlank_iff.mp blank
  fin_cases member <;> decide

theorem not_blank_of_word (char : isWordChar c) : isBlank c = false := by
  by_contra blank
  simp [not_word_of_blank (by simpa using blank)] at char

theorem not_word_of_mark (found : mark? c = some lexeme) : isWordChar c = false := by
  have member := mark?_eq_some_iff.mp found
  fin_cases member <;> decide

theorem mark?_of_word (char : isWordChar c) : mark? c = none := by
  cases found : mark? c with
  | none => rfl
  | some lexeme => simp [not_word_of_mark found] at char

theorem not_blank_of_mark (found : mark? c = some lexeme) : isBlank c = false := by
  have member := mark?_eq_some_iff.mp found
  fin_cases member <;> decide

theorem goesOn_word (spelling : String) (c : Char) : goesOn (word spelling) c = isWordChar c := by
  unfold word
  split_ifs <;> rfl

theorem goesOn_mark (found : mark? c = some lexeme) (d : Char) : goesOn lexeme d = false := by
  have member := mark?_eq_some_iff.mp found
  fin_cases member <;> rfl

theorem Spells.ne_nil (spells : Spells spelling lexeme) : spelling ≠ [] := by
  cases spells with
  | number filled _ => exact filled
  | mark | word => simp

section

variable {keep : Char → Bool} {run rest : List Char}

-- A run is taken as a whole when what follows does not go on with it.
theorem takeWhile_run (all : ∀ c ∈ run, keep c) (stop : ∀ c ∈ rest.head?, keep c = false) :
    (run ++ rest).takeWhile keep = run := by
  rw [List.takeWhile_append_of_pos all]
  cases rest with
  | nil => simp
  | cons c rest => simp [stop c rfl]

theorem dropWhile_run (all : ∀ c ∈ run, keep c) (stop : ∀ c ∈ rest.head?, keep c = false) :
    (run ++ rest).dropWhile keep = rest := by
  rw [List.dropWhile_append_of_pos all]
  cases rest with
  | nil => rfl
  | cons c rest => simp [stop c rfl]

theorem head_dropWhile (keep : Char → Bool) (text : List Char) :
    ∀ c ∈ (text.dropWhile keep).head?, keep c = false := by
  intro c first
  simpa [Option.mem_def.mp first] using List.head?_dropWhile_not keep text

end

theorem number_starts (filled : digits ≠ []) (all : ∀ c ∈ digits, isDigit c)
    (stop : ∀ c ∈ rest.head?, isDigit c = false) : Starts (digits ++ rest) (number digits rest) := by
  unfold number
  split_ifs with overlong tooLarge
  · exact .overlong all stop overlong
  · exact .tooLarge all stop (Nat.le_of_not_lt overlong) tooLarge
  · exact .lexeme (.number filled all) ⟨Nat.le_of_not_lt overlong, Nat.le_of_not_lt tooLarge⟩ stop

theorem fits_mark (found : mark? c = some lexeme) (spelling : List Char) : Fits spelling lexeme := by
  have member := mark?_eq_some_iff.mp found
  fin_cases member <;> trivial

theorem fits_word (spelling : String) (written : List Char) : Fits written (word spelling) := by
  unfold word
  split_ifs <;> trivial

-- The front of a text is one of these things.
theorem starts_front (text : List Char) : Starts text (front text) := by
  cases text with
  | nil => exact .done
  | cons c rest =>
    by_cases blank : isBlank c
    · simpa [front, blank] using Starts.blank blank
    · by_cases digit : isDigit c
      · have all : ∀ d ∈ c :: rest.takeWhile isDigit, isDigit d := by
          simpa [digit] using fun d member => List.mem_takeWhile_imp member
        have starts := number_starts (List.cons_ne_nil _ _) all (head_dropWhile isDigit rest)
        rw [List.cons_append, List.takeWhile_append_dropWhile] at starts
        simpa [front, blank, digit] using starts
      · cases found : mark? c with
        | some lexeme =>
          have starts : Starts ([c] ++ rest) _ :=
            .lexeme (.mark found) (fits_mark found [c]) fun d _ => goesOn_mark found d
          simpa [front, blank, digit, found] using starts
        | none =>
          by_cases letter : isLetter c
          · have all : ∀ d ∈ rest.takeWhile isWordChar, isWordChar d := fun d member => List.mem_takeWhile_imp member
            have ends : Ends (word (String.ofList (c :: rest.takeWhile isWordChar))) (rest.dropWhile isWordChar) :=
              fun d first => (goesOn_word _ d).trans (head_dropWhile isWordChar rest d first)
            have starts := Starts.lexeme (.word letter all) (fits_word _ _) ends
            rw [List.cons_append, List.takeWhile_append_dropWhile] at starts
            simpa [front, blank, digit, found, letter] using starts
          · have other : isWordChar c = false := by simp [isWordChar, letter, digit]
            simpa [front, blank, digit, found, letter] using Starts.stray (by simpa using blank) other found

theorem front_eq_number (filled : digits ≠ []) (all : ∀ c ∈ digits, isDigit c)
    (stop : ∀ c ∈ rest.head?, isDigit c = false) : front (digits ++ rest) = number digits rest := by
  cases digits with
  | nil => exact absurd rfl filled
  | cons c more =>
    obtain ⟨digit, others⟩ := List.forall_mem_cons.mp all
    have blank : isBlank c = false := not_blank_of_word (word_of_digit digit)
    simp [front, blank, digit, takeWhile_run others stop, dropWhile_run others stop]

theorem ne_nil_of_tooLarge (tooLarge : largestLiteral < decimal digits) : digits ≠ [] := by
  intro empty
  simp [empty, decimal] at tooLarge

-- A text has one front only.
theorem front_eq_of_starts (starts : Starts text found) : front text = found := by
  cases starts with
  | done => rfl
  | blank blank => simp [front, blank]
  | lexeme spells fits ends =>
    cases spells with
    | number filled all =>
      rw [front_eq_number filled all ends, number, if_neg (Nat.not_lt.mpr fits.1), if_neg (Nat.not_lt.mpr fits.2)]
    | mark found =>
      have digit := not_digit_of_not_word (not_word_of_mark found)
      simp [front, not_blank_of_mark found, digit, found]
    | word letter all =>
      have stop : ∀ c ∈ _, isWordChar c = false := fun c first => (goesOn_word _ c).symm.trans (ends c first)
      have char := word_of_letter letter
      simp [front, not_blank_of_word char, not_digit_of_letter letter, mark?_of_word char, letter,
        takeWhile_run all stop, dropWhile_run all stop]
  | tooLarge all stop short tooLarge =>
    rw [front_eq_number (ne_nil_of_tooLarge tooLarge) all stop, number, if_neg (Nat.not_lt.mpr short), if_pos tooLarge]
  | overlong all stop overlong =>
    have filled := List.length_pos_iff.mp (Nat.zero_lt_of_lt overlong)
    rw [front_eq_number filled all stop, number, if_pos overlong]
  | stray blank other unmarked =>
    simp only [isWordChar, Bool.or_eq_false_iff] at other
    simp [front, blank, other, unmarked]

-- One step of a scan for each thing that can stand in front.
theorem scanFrom_nil (place : Position) : scanFrom place [] = ⟨[], none, ⟨place, []⟩⟩ := by
  rw [scanFrom]
  rfl

theorem scanFrom_blank (place : Position) (blank : isBlank c) :
    scanFrom place (c :: rest) = scanFrom (place.next c) rest := by
  have seen : front (c :: rest) = .blank c rest := front_eq_of_starts (.blank blank)
  rw [scanFrom]
  split <;> simp_all

theorem scanFrom_lexeme (place : Position) (spells : Spells spelling lexeme) (fits : Fits spelling lexeme)
    (ends : Ends lexeme rest) :
    scanFrom place (spelling ++ rest) =
      { scanFrom (place.past spelling) rest with
        found := (place, lexeme) :: (scanFrom (place.past spelling) rest).found } := by
  have seen := front_eq_of_starts (.lexeme spells fits ends)
  rw [scanFrom]
  split <;> simp_all

theorem scanFrom_fault (place : Position) (starts : Starts text (.fault fault passed rest)) :
    scanFrom place text = ⟨[], some (place, fault), ⟨place.past passed, rest⟩⟩ := by
  have seen := front_eq_of_starts starts
  rw [scanFrom]
  split <;> simp_all

-- What holds of a text whenever it holds of what stands behind its front holds of every text.
@[elab_as_elim]
theorem scan_induction {motive : List Char → Prop} (text : List Char) (done : motive [])
    (blank : ∀ c rest, isBlank c → motive rest → motive (c :: rest))
    (lexeme : ∀ spelling lexeme rest, Spells spelling lexeme → Fits spelling lexeme → Ends lexeme rest →
      motive rest → motive (spelling ++ rest))
    (fault : ∀ text fault passed rest, Starts text (.fault fault passed rest) → motive text) : motive text := by
  induction size : text.length using Nat.strong_induction_on generalizing text with
  | _ size ih =>
    subst size
    have starts := starts_front text
    cases seen : front text with
    | done =>
      rw [seen] at starts
      cases starts
      exact done
    | blank c rest =>
      have shorter := front_blank_shorter seen
      rw [seen] at starts
      cases starts with
      | blank here => exact blank c rest here (ih rest.length shorter rest rfl)
    | lexeme found spelling rest =>
      have shorter := front_lexeme_shorter seen
      rw [seen] at starts
      cases starts with
      | lexeme spells fits ends => exact lexeme spelling found rest spells fits ends (ih rest.length shorter rest rfl)
    | fault found passed rest =>
      rw [seen] at starts
      exact fault text found passed rest starts

end WordC.Scan
