import WordC.Token
import WordC.Text.Lines

namespace WordC.Scan

def largestLiteral : Nat := 0xffffffffffffffff

-- A longer run of digits is not read at all, whatever its value.
def longestDigitRun : Nat := 4300

inductive Fault where
  | strayCharacter (c : Char)
  | literalTooLarge (digits : String)
  | overlongDigitRun (length : Nat)
deriving DecidableEq, Repr

def isBlank (c : Char) : Bool := c = ' ' || c = '\t' || c = '\r' || c = '\n'
def isDigit (c : Char) : Bool := '0' ≤ c && c ≤ '9'
def isLetter (c : Char) : Bool := ('a' ≤ c && c ≤ 'z') || ('A' ≤ c && c ≤ 'Z')
def isWordChar (c : Char) : Bool := isLetter c || isDigit c

def mark? (c : Char) : Option Lexeme :=
  if c = '+' || c = '*' || c = '=' then some (.operator (some (String.singleton c)))
  else if c = '\x7b' || c = '\x7d' then some (.bracket (some (String.singleton c)))
  else if c = '(' || c = ')' then some (.parenthesis (some (String.singleton c)))
  else if c = ',' then some (.comma none)
  else if c = ';' then some (.semicolon none)
  else none

def word (spelling : String) : Lexeme :=
  if spelling = "int" then .typeName (some spelling)
  else if spelling = "return" then .ret none
  else .identifier (some spelling)

def decimal (digits : List Char) : Nat :=
  digits.foldl (fun value c => value * 10 + (c.toNat - '0'.toNat)) 0

-- What stands at the front of a text. A fault comes with the text that is passed before the scan stops.
inductive Front where
  | done
  | blank (c : Char) (rest : List Char)
  | lexeme (found : Lexeme) (spelling rest : List Char)
  | fault (found : Fault) (passed rest : List Char)
deriving DecidableEq, Repr

def number (digits rest : List Char) : Front :=
  if longestDigitRun < digits.length then .fault (.overlongDigitRun digits.length) digits rest
  else if largestLiteral < decimal digits then
    .fault (.literalTooLarge (String.ofList digits)) digits rest
  else .lexeme (.number (some (decimal digits))) digits rest

-- Digits and words are taken as far as they go. A stray character is not passed.
def front : List Char → Front
  | [] => .done
  | c :: rest =>
    if isBlank c then .blank c rest
    else if isDigit c then number (c :: rest.takeWhile isDigit) (rest.dropWhile isDigit)
    else match mark? c with
    | some found => .lexeme found [c] rest
    | none =>
      if isLetter c then
        let spelling := c :: rest.takeWhile isWordChar
        .lexeme (word (String.ofList spelling)) spelling (rest.dropWhile isWordChar)
      else .fault (.strayCharacter c) [] (c :: rest)

theorem length_dropWhile_le (keep : Char → Bool) (text : List Char) :
    (text.dropWhile keep).length ≤ text.length :=
  (List.dropWhile_sublist keep).length_le

theorem number_lexeme {digits rest : List Char} (found : number digits rest = .lexeme l s r) :
    r = rest := by
  unfold number at found
  split at found
  · cases found
  · split at found
    · cases found
    · cases found; rfl

theorem front_blank_shorter (found : front text = .blank c rest) : rest.length < text.length := by
  unfold front at found
  split at found
  · cases found
  · split at found
    · cases found; simp
    · split at found
      · unfold number at found; split at found
        · cases found
        · split at found <;> cases found
      · split at found
        · cases found
        · split at found <;> cases found

theorem front_lexeme_shorter (found : front text = .lexeme l s rest) : rest.length < text.length := by
  unfold front at found
  split at found
  · cases found
  · rename_i c more
    have digits := length_dropWhile_le isDigit more
    have words := length_dropWhile_le isWordChar more
    simp only [List.length_cons]
    split at found
    · cases found
    · split at found
      · rw [number_lexeme found]; omega
      · split at found
        · cases found; omega
        · split at found
          · cases found; omega
          · cases found

structure State where
  place : Position
  rest : List Char
deriving DecidableEq, Repr

-- The next scan goes on from the state that this one comes to.
structure Result where
  found : List (Position × Lexeme)
  stopped : Option (Position × Fault)
  state : State
deriving DecidableEq, Repr

def scanFrom (place : Position) (text : List Char) : Result :=
  match _seen : front text with
  | .done => ⟨[], none, ⟨place, []⟩⟩
  | .blank c rest => scanFrom (place.next c) rest
  | .lexeme found spelling rest =>
    let later := scanFrom (place.past spelling) rest
    { later with found := (place, found) :: later.found }
  | .fault fault passed rest => ⟨[], some (place, fault), ⟨place.past passed, rest⟩⟩
termination_by text.length
decreasing_by
  · exact front_blank_shorter _seen
  · exact front_lexeme_shorter _seen

def State.start (text : String) : State := ⟨.start, text.toList⟩

def State.scan (state : State) : Result := scanFrom state.place state.rest

-- The line of the whole text that a scan stands on.
def State.currentLine (source : String) (state : State) : String :=
  String.ofList (Text.lineFrom source.toList state.place.lineStart)

def Result.tokens (result : Result) (file : String) : List Token :=
  result.found.map fun (place, lexeme) => ⟨lexeme, place.inFile file⟩

end WordC.Scan
