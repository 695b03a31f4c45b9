import Mathlib.Data.List.SplitBy
import WordC.Proofs.Token.Places

namespace WordC.Scan

-- The reading of a text, said of the text as a whole: it falls into blocks, and every block is read on its own.

def blanks : List Char := [' ', '\t', '\r', '\n']

def reserved : List (String × Lexeme) := [("int", .typeName (some "int")), ("return", .ret none)]

def InAlphabet (c : Char) : Prop := c.isAlphanum ∨ c ∈ blanks ∨ c ∈ marks.map Prod.fst

-- Letters and digits make blocks that are as long as they can be. Every other character is a block of its own.
def blocks (text : List Char) : List (List Char) :=
  text.splitBy fun a b => a.isAlphanum && b.isAlphanum

def leadingDigits (block : List Char) : List Char := block.takeWhile Char.isDigit

def literalValue (digits : List Char) : Nat := Nat.ofDigitChars 10 digits 0

-- What follows the digits of a block: nothing, a mark, or a word.
def afterDigits : List Char → List Lexeme
  | [] => []
  | c :: rest =>
    if c ∈ blanks then []
    else match marks.lookup c with
    | some mark => [mark]
    | none =>
      let spelling := String.ofList (c :: rest)
      [(reserved.lookup spelling).getD (.identifier (some spelling))]

def blockLexemes (block : List Char) : List Lexeme :=
  (if leadingDigits block = [] then [] else [.number (some (literalValue (leadingDigits block)))]) ++
    afterDigits (block.dropWhile Char.isDigit)

-- What is wrong with a block, if anything is.
inductive Offence : List Char → Fault → Prop where
  | stray : ¬InAlphabet c → Offence [c] (.strayCharacter c)
  | tooLarge : 18446744073709551615 < literalValue (leadingDigits block) →
      Offence block (.literalTooLarge (String.ofList (leadingDigits block)))

structure Clean (text : List Char) : Prop where
  alphabet : ∀ c ∈ text, InAlphabet c
  literals : ∀ block ∈ blocks text, literalValue (leadingDigits block) ≤ 18446744073709551615

-- The first block that is wrong stands after `before`.
def FirstOffence (text before : List Char) (fault : Fault) : Prop :=
  ∃ earlier block later, blocks text = earlier ++ block :: later ∧ earlier.flatten = before ∧
    (∀ other ∈ earlier, ∀ fault', ¬Offence other fault') ∧ Offence block fault

-- No run of digits is too long to be looked at.
def Short (text : List Char) : Prop :=
  ∀ run, run <:+: text → (∀ c ∈ run, c.isDigit) → run.length ≤ 4300

def IsBlock (block rest : List Char) : Prop :=
  (∃ c, block = [c] ∧ c.isAlphanum = false) ∨
    block ≠ [] ∧ (∀ c ∈ block, c.isAlphanum) ∧ ∀ c ∈ rest.head?, c.isAlphanum = false

theorem blocks_append (isBlock : IsBlock block rest) : blocks (block ++ rest) = block :: blocks rest := by
  unfold blocks
  rcases isBlock with ⟨c, rfl, other⟩ | ⟨filled, all, stop⟩
  · rw [List.splitBy_append (by simp [other])]
    rfl
  · rw [List.splitBy_append, List.splitBy_of_isChain filled]
    · rfl
    · refine List.Pairwise.isChain (List.pairwise_of_forall_mem_list ?_)
      intro a member b member'
      simp [all a member, all b member']
    · intro a last b first
      simp [stop b first]

-- What holds of a text whenever it holds after its first block holds of every text.
@[elab_as_elim]
theorem block_induction {motive : List Char → Prop} (nil : motive [])
    (step : ∀ block rest, IsBlock block rest → motive rest → motive (block ++ rest)) (text : List Char) :
    motive text :=
  match text with
  | [] => nil
  | c :: rest => by
    by_cases char : c.isAlphanum
    · have all : ∀ d ∈ c :: rest.takeWhile Char.isAlphanum, d.isAlphanum := by
        simpa [char] using fun d member => List.mem_takeWhile_imp member
      have isBlock : IsBlock (c :: rest.takeWhile Char.isAlphanum) (rest.dropWhile Char.isAlphanum) :=
        .inr ⟨List.cons_ne_nil _ _, all, head_dropWhile Char.isAlphanum rest⟩
      have whole := step _ _ isBlock (block_induction nil step (rest.dropWhile Char.isAlphanum))
      rwa [List.cons_append, List.takeWhile_append_dropWhile] at whole
    · exact step [c] rest (.inl ⟨c, rfl, by simpa using char⟩) (block_induction nil step rest)
termination_by text.length
decreasing_by
  · exact Nat.lt_succ_of_le (length_dropWhile_le _ _)
  · exact Nat.lt_succ_self _

theorem mark?_eq_lookup (c : Char) : mark? c = marks.lookup c := by
  cases found : mark? c with
  | some lexeme =>
    have member := mark?_eq_some_iff.mp found
    fin_cases member <;> rfl
  | none =>
    symm
    rw [List.lookup_eq_none_iff]
    intro entry member
    have apart : c ≠ entry.1 := by
      intro same
      subst same
      rw [mark?_eq_some_iff.mpr member] at found
      cases found
    simpa using apart

theorem word_eq_lookup (spelling : String) :
    word spelling = (reserved.lookup spelling).getD (.identifier (some spelling)) := by
  unfold word
  split_ifs with isType isReturn
  · subst isType
    rfl
  · subst isReturn
    rfl
  · have unreserved : reserved.lookup spelling = none := by
      simp [List.lookup_eq_none_iff, reserved, isType, isReturn]
    rw [unreserved]
    rfl

theorem afterDigits_word (letter : isLetter c) :
    afterDigits (c :: rest) = [word (String.ofList (c :: rest))] := by
  have char := word_of_letter letter
  have unblank : c ∉ blanks := by
    intro member
    have blank := not_word_of_blank (isBlank_iff.mpr member)
    simp [char] at blank
  have unmarked : marks.lookup c = none := (mark?_eq_lookup c).symm.trans (mark?_of_word char)
  simp [afterDigits, unblank, unmarked, word_eq_lookup]

theorem inAlphabet_of_word (char : isWordChar c) : InAlphabet c :=
  .inl (by rwa [← isWordChar_eq])

-- A block that is read without a fault.
structure Readable (block : List Char) : Prop where
  alphabet : ∀ c ∈ block, InAlphabet c
  literal : literalValue (leadingDigits block) ≤ 18446744073709551615

theorem Readable.not_offence (readable : Readable block) : ¬Offence block fault := by
  intro offence
  cases offence with
  | stray outside => exact outside (readable.alphabet _ List.mem_cons_self)
  | tooLarge large => exact Nat.not_le.mpr large readable.literal

theorem clean_append (isBlock : IsBlock block rest) : Clean (block ++ rest) ↔ Readable block ∧ Clean rest := by
  have listed := blocks_append isBlock
  constructor
  · intro clean
    have alphabet := List.forall_mem_append.mp clean.alphabet
    have literals := clean.literals
    rw [listed, List.forall_mem_cons] at literals
    exact ⟨⟨alphabet.1, literals.1⟩, alphabet.2, literals.2⟩
  · intro both
    refine ⟨List.forall_mem_append.mpr ⟨both.1.alphabet, both.2.alphabet⟩, ?_⟩
    rw [listed, List.forall_mem_cons]
    exact ⟨both.1.literal, both.2.literals⟩

-- How the scan passes a block: it stops at its start with what is wrong with it, or finds its lexemes and goes on.
inductive Passes (place : Position) (block rest : List Char) : Prop where
  | stops : Offence block fault → (scanFrom place (block ++ rest)).stopped = some (place, fault) →
      Passes place block rest
  | reads (found : List (Position × Lexeme)) : Readable block → found.map Prod.snd = blockLexemes block →
      scanFrom place (block ++ rest) = { scanFrom (place.past block) rest with
        found := found ++ (scanFrom (place.past block) rest).found } →
      Passes place block rest

theorem leadingDigits_single (other : isWordChar c = false) : leadingDigits [c] = [] := by
  have digit : c.isDigit = false := by
    simp only [isWordChar, Bool.or_eq_false_iff, isDigit_eq] at other
    exact other.2
  simp [leadingDigits, digit]

theorem passes_single (place : Position) (other : isWordChar c = false) (rest : List Char) :
    Passes place [c] rest := by
  have digits : leadingDigits [c] = [] := leadingDigits_single other
  have literal : literalValue (leadingDigits [c]) ≤ 18446744073709551615 := by
    simp [digits, literalValue, Nat.ofDigitChars]
  have dropped : [c].dropWhile Char.isDigit = [c] := by
    simp only [isWordChar, Bool.or_eq_false_iff, isDigit_eq] at other
    simp [other.2]
  by_cases blank : isBlank c
  · have member : c ∈ blanks := isBlank_iff.mp blank
    refine .reads [] ⟨by simp [InAlphabet, member], literal⟩ ?_ ?_
    · simp [blockLexemes, digits, dropped, afterDigits, member]
    · exact scanFrom_blank place blank
  · have unblank : c ∉ blanks := fun member => blank (isBlank_iff.mpr member)
    cases found : mark? c with
    | some mark =>
      have listed := mark?_eq_some_iff.mp found
      refine .reads [(place, mark)] ⟨?_, literal⟩ ?_ ?_
      · simpa using .inr (.inr (List.mem_map_of_mem listed))
      · simp [blockLexemes, digits, dropped, afterDigits, unblank, ← mark?_eq_lookup, found]
      · exact scanFrom_lexeme place (.mark found) (fits_mark found [c]) fun d _ => goesOn_mark found d
    | none =>
      have outside : ¬InAlphabet c := by
        intro inside
        rcases inside with char | member | member
        · rw [← isWordChar_eq, other] at char
          cases char
        · exact unblank member
        · obtain ⟨entry, listed, rfl⟩ := List.mem_map.mp member
          rw [mark?_eq_some_iff.mpr listed] at found
          cases found
      refine .stops (.stray outside) ?_
      rw [List.singleton_append, scanFrom_fault place (.stray (by simpa using blank) other found)]

-- What the digits of a block leave over is nothing or a word.
theorem scan_afterDigits (place : Position) (all : ∀ c ∈ more, isWordChar c)
    (after : ∀ c ∈ more.head?, isDigit c = false) (stop : ∀ c ∈ rest.head?, isWordChar c = false) :
    ∃ found : List (Position × Lexeme), found.map Prod.snd = afterDigits more ∧
      scanFrom place (more ++ rest) = { scanFrom (place.past more) rest with
        found := found ++ (scanFrom (place.past more) rest).found } := by
  cases more with
  | nil => exact ⟨[], rfl, rfl⟩
  | cons c others =>
    obtain ⟨char, all⟩ := List.forall_mem_cons.mp all
    have letter : isLetter c := by
      have digit := after c rfl
      simpa [isWordChar, digit] using char
    refine ⟨[(place, word (String.ofList (c :: others)))], by simp [afterDigits_word letter], ?_⟩
    exact scanFrom_lexeme place (.word letter all) (fits_word _ _)
      fun d first => (goesOn_word _ d).trans (stop d first)

theorem passes_word (place : Position) (all : ∀ c ∈ block, isWordChar c)
    (stop : ∀ c ∈ rest.head?, isWordChar c = false) (short : (leadingDigits block).length ≤ longestDigitRun) :
    Passes place block rest := by
  obtain ⟨digits, more, split, allDigits, after⟩ : ∃ digits more, block = digits ++ more ∧
      (∀ c ∈ digits, isDigit c) ∧ ∀ c ∈ more.head?, isDigit c = false :=
    ⟨block.takeWhile isDigit, block.dropWhile isDigit, (List.takeWhile_append_dropWhile).symm,
      fun c member => List.mem_takeWhile_imp member, head_dropWhile isDigit block⟩
  have leading : leadingDigits block = digits := by
    rw [split]
    exact takeWhile_run allDigits after
  have left : block.dropWhile Char.isDigit = more := by
    rw [split]
    exact dropWhile_run allDigits after
  have alphabet : ∀ c ∈ block, InAlphabet c := fun c member => inAlphabet_of_word (all c member)
  have follows : ∀ c ∈ (more ++ rest).head?, isDigit c = false := by
    cases more with
    | nil =>
      intro c first
      have other := stop c first
      simp only [isWordChar, Bool.or_eq_false_iff] at other
      exact other.2
    | cons d others => exact after
  have value : literalValue (leadingDigits block) = decimal digits := by
    rw [leading, decimal_eq, literalValue]
  obtain ⟨found, lexemes, scanned⟩ := scan_afterDigits (place.past digits)
    (fun c member => all c (split ▸ List.mem_append_right _ member)) after stop
  have passed : place.past block = (place.past digits).past more := by
    rw [split, Position.past, List.foldl_append]
    rfl
  by_cases large : largestLiteral < decimal digits
  · have offence : Offence block (.literalTooLarge (String.ofList digits)) := by
      rw [← leading]
      exact .tooLarge (value ▸ large)
    refine .stops offence ?_
    rw [split, List.append_assoc, scanFrom_fault place (.tooLarge allDigits follows (leading ▸ short) large)]
  · have small := Nat.le_of_not_lt large
    have readable : Readable block := ⟨alphabet, value ▸ small⟩
    cases digits with
    | nil =>
      refine .reads found readable ?_ ?_
      · simp [blockLexemes, leading, left, lexemes]
      · rw [passed, split]
        exact scanned
    | cons d others =>
      refine .reads ((place, .number (some (decimal (d :: others)))) :: found) readable ?_ ?_
      · rw [leading] at value
        simp [blockLexemes, leading, left, lexemes, value]
      · rw [passed, split, List.append_assoc,
          scanFrom_lexeme place (.number (List.cons_ne_nil _ _) allDigits) ⟨leading ▸ short, small⟩ follows, scanned]
        rfl

theorem Short.append (short : Short (block ++ rest)) : Short rest :=
  fun run inside => short run (inside.trans (List.suffix_append block rest).isInfix)

theorem passes_block (place : Position) (isBlock : IsBlock block rest) (short : Short (block ++ rest)) :
    Passes place block rest := by
  rcases isBlock with ⟨c, rfl, other⟩ | ⟨_, all, stop⟩
  · exact passes_single place (by rwa [isWordChar_eq]) rest
  · refine passes_word place (by simpa [isWordChar_eq] using all) (by simpa [isWordChar_eq] using stop) ?_
    refine short _ ?_ fun c member => List.mem_takeWhile_imp member
    exact (List.takeWhile_prefix _).isInfix.trans (List.prefix_append block rest).isInfix

-- A scan ends as its blocks say: with all their lexemes, or at the first block that is wrong.
def Agreement (place : Position) (text : List Char) : Prop :=
  match (scanFrom place text).stopped with
  | none => Clean text ∧ (scanFrom place text).found.map Prod.snd = (blocks text).flatMap blockLexemes
  | some (stop, fault) => ∃ before, stop = place.past before ∧ FirstOffence text before fault

theorem firstOffence_append (isBlock : IsBlock block rest) (readable : Readable block)
    (first : FirstOffence rest before fault) : FirstOffence (block ++ rest) (block ++ before) fault := by
  obtain ⟨earlier, wrong, later, split, flat, fine, offence⟩ := first
  refine ⟨block :: earlier, wrong, later, ?_, by simp [flat], ?_, offence⟩
  · rw [blocks_append isBlock, split, List.cons_append]
  · exact List.forall_mem_cons.mpr ⟨fun fault' => readable.not_offence, fine⟩

theorem FirstOffence.not_clean (first : FirstOffence text before fault) : ¬Clean text := by
  obtain ⟨earlier, wrong, later, split, _, _, offence⟩ := first
  intro clean
  have member : wrong ∈ blocks text := by simp [split]
  refine Readable.not_offence ⟨?_, clean.literals wrong member⟩ offence
  intro c inside
  apply clean.alphabet
  rw [← List.flatten_splitBy (fun a b => a.isAlphanum && b.isAlphanum) text]
  exact List.mem_flatten_of_mem member inside

theorem scan_agrees (text : List Char) : ∀ place, Short text → Agreement place text := by
  induction text using block_induction with
  | nil =>
    intro place short
    have clean : Clean [] := ⟨by simp, by simp [blocks]⟩
    simp only [Agreement, scanFrom_nil]
    exact ⟨clean, rfl⟩
  | step block rest isBlock ih =>
    intro place short
    cases passes_block place isBlock short with
    | stops offence stopped =>
      simp only [Agreement, stopped]
      exact ⟨[], rfl, [], block, blocks rest, blocks_append isBlock, rfl, by simp, offence⟩
    | reads found readable lexemes scanned =>
      have later := ih (place.past block) short.append
      simp only [Agreement, scanned] at later ⊢
      cases stopped : (scanFrom (place.past block) rest).stopped with
      | none =>
        simp only [stopped] at later ⊢
        refine ⟨(clean_append isBlock).mpr ⟨readable, later.1⟩, ?_⟩
        rw [List.map_append, lexemes, later.2, blocks_append isBlock, List.flatMap_cons]
      | some stop =>
        simp only [stopped] at later ⊢
        obtain ⟨before, place_eq, first⟩ := later
        refine ⟨block ++ before, ?_, firstOffence_append isBlock readable first⟩
        rw [place_eq]
        simp only [Position.past, List.foldl_append]

-- A text without overlong runs of digits is read block by block. It is read to the end exactly when it is clean,
-- and otherwise nothing is returned but the fault of the first block that is wrong, at the start of that block.
theorem tokenize_reads_blocks (file text : String) (short : Short text.toList) :
    ((∃ tokens, tokenize file text = .ok tokens) ↔ Clean text.toList) ∧
    (∀ tokens, tokenize file text = .ok tokens →
      tokens.map Token.lexeme = (blocks text.toList).flatMap blockLexemes) ∧
    ∀ failure, tokenize file text = .error failure → ∃ before fault,
      FirstOffence text.toList before fault ∧ Reported file text fault (Position.start.past before) failure := by
  have agrees := scan_agrees text.toList Position.start short
  unfold Agreement at agrees
  cases stopped : (scanFrom .start text.toList).stopped with
  | none =>
    simp only [stopped] at agrees
    have read : tokenize file text = .ok ((scanFrom .start text.toList).tokens file) := by
      simp [tokenize, tokensFrom, State.start, State.scan, stopped]
    refine ⟨⟨fun _ => agrees.1, fun _ => ⟨_, read⟩⟩, ?_, ?_⟩
    · intro tokens run
      rw [read] at run
      cases run
      rw [← agrees.2]
      simp [Result.tokens]
    · intro failure run
      rw [read] at run
      cases run
  | some stop =>
    obtain ⟨place, fault⟩ := stop
    simp only [stopped] at agrees
    obtain ⟨before, rfl, first⟩ := agrees
    obtain ⟨failure, reported, refused⟩ := tokenize_reported stopped
    refine ⟨⟨?_, fun clean => absurd clean first.not_clean⟩, ?_, ?_⟩
    · intro accepted
      obtain ⟨tokens, run⟩ := accepted
      rw [refused] at run
      cases run
    · intro tokens run
      rw [refused] at run
      cases run
    · intro failure run
      rw [refused] at run
      cases run
      exact ⟨before, fault, first, reported⟩

theorem short_of_length (length : text.length ≤ 4300) : Short text :=
  fun _ inside _ => inside.length_le.trans length

-- Digits inside a word make no number, zeros in front do not count, and a literal that is too large comes before a
-- stray character.
def lateOffences : String := "12ab34=a99999999999999999999;int1 000018446744073709551615return 18446744073709551616int@"

theorem lateOffences_first :
    Short lateOffences.toList ∧ ∃ failure before fault, tokenize "m.c" lateOffences = .error failure ∧
      FirstOffence lateOffences.toList before fault ∧
        Reported "m.c" lateOffences fault (Position.start.past before) failure := by
  have short : Short lateOffences.toList := short_of_length (by decide)
  have refused : (tokenize "m.c" lateOffences).isOk = false := by decide +kernel
  cases run : tokenize "m.c" lateOffences with
  | ok tokens =>
    rw [run] at refused
    cases refused
  | error failure =>
    obtain ⟨before, fault, first, reported⟩ := (tokenize_reads_blocks "m.c" lateOffences short).2.2 failure run
    exact ⟨short, failure, before, fault, rfl, first, reported⟩

end WordC.Scan
