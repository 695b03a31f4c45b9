import WordC.Compile
import WordC.Proofs.Token.Spelling

namespace WordC.Scan

-- The usual way to write a lexeme.
def usualSpelling : Lexeme → List Char
  | .number value => Nat.toDigits 10 (value.getD 0).toNat
  | .identifier name | .typeName name => (name.getD "").toList
  | .operator symbol | .bracket symbol | .parenthesis symbol => (symbol.getD "").toList
  | .comma _ => [',']
  | .semicolon _ => [';']
  | .ret _ => "return".toList

def isWord : Lexeme → Bool
  | .identifier _ | .typeName _ | .ret _ => true
  | _ => false

def isNumber : Lexeme → Bool
  | .number _ => true
  | _ => false

-- Two lexemes that cannot stand side by side: a word before a word or a number, and a number before a number.
def clash : Option Lexeme → Lexeme → Bool
  | none, _ => false
  | some first, second => isWord first && (isWord second || isNumber second) || isNumber first && isNumber second

-- A text that writes lexemes in order, after a previous one, with blanks wherever they please and at least where
-- they are needed.
inductive Layout : Option Lexeme → List Lexeme → List Char → Prop where
  | last : (∀ c ∈ gap, isBlank c) → Layout previous [] gap
  | next : (∀ c ∈ gap, isBlank c) → (clash previous lexeme → gap ≠ []) → Layout (some lexeme) rest text →
      Layout previous (lexeme :: rest) (gap ++ usualSpelling lexeme ++ text)

-- Whether a text is a layout, for lexemes that begin with no blank.
def isLayout : Option Lexeme → List Lexeme → List Char → Bool
  | _, [], text => text.all isBlank
  | previous, lexeme :: rest, text =>
    let gap := text.takeWhile isBlank
    let written := text.dropWhile isBlank
    (!clash previous lexeme || gap ≠ []) && (usualSpelling lexeme).isPrefixOf written &&
      isLayout (some lexeme) rest (written.drop (usualSpelling lexeme).length)

theorem layout_of_isLayout (checked : isLayout previous lexemes text) : Layout previous lexemes text := by
  induction lexemes generalizing previous text with
  | nil => exact .last (List.all_eq_true.mp checked)
  | cons lexeme rest ih =>
    simp only [isLayout, Bool.and_eq_true, List.isPrefixOf_iff_prefix] at checked
    obtain ⟨⟨apart, written⟩, later⟩ := checked
    obtain ⟨behind, split⟩ := written
    rw [← split, List.drop_left] at later
    have whole : text = text.takeWhile isBlank ++ usualSpelling lexeme ++ behind := by
      rw [List.append_assoc, split, List.takeWhile_append_dropWhile]
    rw [whole]
    refine .next (fun c member => List.mem_takeWhile_imp member) (fun clashing => ?_) (ih later)
    simpa [clashing] using apart

-- A lexeme whose usual writing is read back.
def Written (lexeme : Lexeme) : Prop := Spells (usualSpelling lexeme) lexeme ∧ Fits (usualSpelling lexeme) lexeme

-- No lexeme goes on with a blank or a mark.
theorem goesOn_other (lexeme : Lexeme) (other : isWordChar c = false) : goesOn lexeme c = false := by
  have digit := not_digit_of_not_word other
  cases lexeme <;> simp [goesOn, other, digit]

theorem isWord_word (spelling : String) : isWord (word spelling) := by
  unfold word
  split_ifs <;> rfl

-- A lexeme goes on with the first character of another one only if the two clash.
theorem goesOn_head (spells : Spells (c :: more) second) (apart : clash (some first) second = false) :
    goesOn first c = false := by
  cases spells with
  | number filled all =>
    have char := word_of_digit (all c List.mem_cons_self)
    cases first <;> simp_all [clash, isWord, isNumber, goesOn]
  | mark found => exact goesOn_other first (not_word_of_mark found)
  | word letter all =>
    have digit := not_digit_of_letter letter
    have other : isWord first = false := by simp_all [clash, isWord_word]
    cases first <;> simp_all [isWord, goesOn]

theorem layout_ends (layout : Layout (some lexeme) rest text) (written : ∀ other ∈ rest, Written other) :
    Ends lexeme text := by
  intro c first
  cases layout with
  | last blank => exact goesOn_other lexeme (not_word_of_blank (blank c (List.mem_of_mem_head? first)))
  | @next gap _ second others later blank apart _ =>
    cases gap with
    | cons d gap =>
      obtain rfl : d = c := by simpa using first
      exact goesOn_other lexeme (not_word_of_blank (blank d List.mem_cons_self))
    | nil =>
      have spells := (written second List.mem_cons_self).1
      cases spelled : usualSpelling second with
      | nil => exact absurd spelled spells.ne_nil
      | cons d more =>
        obtain rfl : d = c := by simpa [spelled] using first
        exact goesOn_head (spelled ▸ spells) (by simpa using apart)

theorem scanFrom_gap (place : Position) (blank : ∀ c ∈ gap, isBlank c) (text : List Char) :
    scanFrom place (gap ++ text) = scanFrom (place.past gap) text := by
  induction gap generalizing place with
  | nil => rfl
  | cons c gap ih =>
    obtain ⟨here, later⟩ := List.forall_mem_cons.mp blank
    rw [List.cons_append, scanFrom_blank place here]
    exact ih (place.next c) later

-- Whatever the layout, the lexemes are read back.
theorem scan_layout (layout : Layout previous lexemes text) :
    ∀ place, (∀ lexeme ∈ lexemes, Written lexeme) →
      (scanFrom place text).stopped = none ∧ (scanFrom place text).found.map Prod.snd = lexemes := by
  induction layout with
  | @last gap _ blank =>
    intro place written
    have passed := scanFrom_gap place blank []
    rw [List.append_nil, scanFrom_nil] at passed
    rw [passed]
    exact ⟨rfl, rfl⟩
  | next blank apart layout ih =>
    intro place written
    obtain ⟨here, others⟩ := List.forall_mem_cons.mp written
    rw [List.append_assoc, scanFrom_gap place blank,
      scanFrom_lexeme _ here.1 here.2 (layout_ends layout others)]
    obtain ⟨stopped, found⟩ := ih ((place.past _).past _) others
    exact ⟨stopped, by simp [found]⟩

theorem tokenize_layout {text : String} (layout : Layout previous lexemes text.toList)
    (written : ∀ lexeme ∈ lexemes, Written lexeme) (file : String) :
    ∃ tokens, tokenize file text = .ok tokens ∧ tokens.map Token.lexeme = lexemes := by
  obtain ⟨stopped, found⟩ := scan_layout layout Position.start written
  refine ⟨(scanFrom .start text.toList).tokens file, ?_, ?_⟩
  · simp [tokenize, tokensFrom, State.start, State.scan, stopped]
  · rw [← found]
    simp [Result.tokens]

end WordC.Scan
