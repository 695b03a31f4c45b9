namespace WordC.Assembly

-- The name of something, or its number where it has no name.
inductive Id where
  | named (name : String)
  | numbered (n : Nat)
deriving DecidableEq

-- A number with a point, or the bits of one: a mark for their form goes before them.
inductive Numeral where
  | decimal (digits : Nat) (exponent : Int)
  | pattern (form : Char) (bits : Nat)
deriving DecidableEq

-- The words of an assembly text. Comments and blanks only separate them.
inductive Word where
  | mark (c : Char)
  | dots
  | letters (word : String)
  | int (bits : Nat)
  | label (id : Id)
  | global (id : Id)
  | register (id : Id)
  | comdat (name : String)
  | metadata (name : String)
  | group (n : Nat)
  | summary (n : Nat)
  | quoted (text : String) (bytes : Nat)
  | number (value : Int)
  | real (value : Numeral)
deriving DecidableEq

def endsLine (c : Char) : Bool := c = '\n' || c = '\r'

def isBlank (c : Char) : Bool := c = ' ' || c = '\t' || endsLine c

def isLabelMark (c : Char) : Bool := c.isAlphanum || c = '-' || c = '$' || c = '.' || c = '_'

def isNameStart (c : Char) : Bool := isLabelMark c && !c.isDigit

def isHexMark (c : Char) : Bool := c.isDigit || ('a' ≤ c.toLower && c.toLower ≤ 'f')

def hexValue (c : Char) : Nat :=
  if c.isDigit then c.toNat - '0'.toNat else c.toLower.toNat - 'a'.toNat + 10

-- An escape is a doubled backslash, or one before two hex digits. With what it stands for goes how many more
-- characters it takes.
def escapeAt? : List Char → Option (Char × Nat)
  | '\\' :: '\\' :: _ => some ('\\', 1)
  | '\\' :: a :: b :: _ =>
    if isHexMark a && isHexMark b then some (Char.ofNat (hexValue a * 16 + hexValue b), 2) else none
  | _ => none

-- The text with its escapes taken off, from the place on that is reached after passing over some characters. With
-- each character goes how many bytes it takes; an escape is one byte.
def unescapedFrom : (passing : Nat) → List Char → List (Char × Nat)
  | _, [] => []
  | passing + 1, _ :: rest => unescapedFrom passing rest
  | 0, c :: rest =>
    match escapeAt? (c :: rest) with
    | some (meant, more) => (meant, 1) :: unescapedFrom more rest
    | none => (c, c.utf8Size) :: unescapedFrom 0 rest

def unescaped (text : List Char) : List (Char × Nat) := unescapedFrom 0 text

def natOf (digits : List Char) : Nat := (String.ofList digits).toNat?.getD 0

-- Numbers of values fit into 32 bits.
def idNumber? (digits : List Char) : Option Nat :=
  if natOf digits ≤ 0xffffffff then some (natOf digits) else none

-- What stands between an opening quote and the next one: the text, its bytes, and how many characters it takes with
-- both quotes.
def quotedAt? (rest : List Char) : Option (String × Nat × Nat) :=
  let inside := rest.takeWhile (· ≠ '\x22')
  if inside.length = rest.length then none
  else
    let meant := unescaped inside
    some (String.ofList (meant.map Prod.fst), meant.foldl (fun n entry => n + entry.2) 0, inside.length + 2)

-- Names cannot hold a null character.
def quotedNameAt? (rest : List Char) : Option (String × Nat) :=
  (quotedAt? rest).bind fun (name, _, length) =>
    if name.toList.contains '\x00' then none else some (name, length)

-- A name or number that follows a mark, and its length.
def nameAt? : List Char → Option (String × Nat)
  | '\x22' :: rest => quotedNameAt? rest
  | text =>
    if text.head?.any isNameStart then
      let name := text.takeWhile isLabelMark
      some (String.ofList name, name.length)
    else none

def idAt? (text : List Char) : Option (Id × Nat) :=
  match nameAt? text with
  | some (name, length) => some (.named name, length)
  | none =>
    let digits := text.takeWhile Char.isDigit
    if digits.isEmpty then none else (idNumber? digits).map fun n => (.numbered n, digits.length)

-- The length of a label, if one stands here up to its colon.
def labelAt? (text : List Char) : Option (String × Nat) :=
  let name := text.takeWhile isLabelMark
  if (text.drop name.length).head? = some ':' then some (String.ofList name, name.length + 1) else none

-- The length of a comment between marks, behind its opening mark. A star takes the next character along.
def commentLength? : List Char → Option Nat
  | '*' :: '/' :: _ => some 2
  | '*' :: _ :: rest => (commentLength? rest).map (· + 2)
  | _ :: rest => (commentLength? rest).map (· + 1)
  | [] => none

-- The widest integer type has so many bits.
def widestInt : Nat := 0x800000

def hexOf (digits : List Char) : Nat := digits.foldl (fun n c => n * 16 + hexValue c) 0

-- A whole number by its bits, as few of them as it needs: without a sign, or with one in the first of them.
def bitsAt? (text : List Char) : Option (Word × Nat) :=
  match text with
  | sign :: '0' :: 'x' :: rest =>
    let digits := rest.takeWhile isHexMark
    let size := hexOf digits
    if digits.isEmpty || (sign ≠ 'u' && sign ≠ 's') then none
    else if sign = 'u' || size = 0 then some (.number size, digits.length + 3)
    else some (.number ((size : Int) - (1 <<< (size.log2 + 1) : Nat)), digits.length + 3)
  | _ => none

-- Words that start with a letter: labels, integer types, numbers by their bits, and everything else that is spelled.
def spelledAt? (text : List Char) : Option (Word × Nat) :=
  match labelAt? text, bitsAt? text with
  | some (name, length), _ => some (.label (.named name), length)
  | none, some found => some found
  | none, none =>
    let digits := (text.drop 1).takeWhile Char.isDigit
    if text.head? = some 'i' && !digits.isEmpty then
      let bits := natOf digits
      if 1 ≤ bits && bits ≤ widestInt then some (.int bits, digits.length + 1) else none
    else
      let word := text.takeWhile fun c => c.isAlphanum || c = '_'
      if word.take 2 = ['c', 'c'] && (word.drop 2).head?.any Char.isDigit then some (.letters "cc", 2)
      else some (.letters (String.ofList word), word.length)

-- A decimal number from the digits before its point and what stands behind it, and how much of that belongs to it.
def decimalAt (whole text : List Char) : Numeral × Nat :=
  let fraction := text.takeWhile Char.isDigit
  let plain : Numeral × Nat := (.decimal (natOf (whole ++ fraction)) (-(fraction.length : Int)), fraction.length)
  match text.drop fraction.length with
  | 'e' :: rest | 'E' :: rest =>
    let signs := if rest.head?.any (fun c => c = '+' || c = '-') then 1 else 0
    let digits := (rest.drop signs).takeWhile Char.isDigit
    let size : Int := natOf digits
    let exponent := if rest.head? = some '-' then -size else size
    if digits.isEmpty then plain
    else (.decimal (natOf (whole ++ fraction)) (exponent - fraction.length),
      fraction.length + 1 + signs + digits.length)
  | _ => plain

-- Forms of numbers by their bits that have a mark of their own, and the usual one.
def patternForms : List Char := ['K', 'L', 'M', 'H', 'R']

def usualForm : Char := 'J'

def patternAt? (text : List Char) : Option (Numeral × Nat) :=
  let (form, marks) := match text.head? with
    | some c => if patternForms.contains c then (c, 1) else (usualForm, 0)
    | none => (usualForm, 0)
  let digits := (text.drop marks).takeWhile isHexMark
  let bits := hexOf digits
  let limit := if ['K', 'L', 'M'].contains form then 128 else 64
  if digits.isEmpty || 1 <<< limit ≤ bits then none else some (.pattern form bits, marks + digits.length)

-- Words that start with a digit or a minus sign: numbers and labels.
def numeralAt? (negative : Bool) (digits rest : List Char) (whole : List Char) : Option (Word × Nat) :=
  let length := digits.length + if negative then 1 else 0
  if digits.isEmpty then (labelAt? whole).map fun (name, length) => (.label (.named name), length)
  else if !negative && rest.head? = some ':' then
    (idNumber? digits).map fun n => (.label (.numbered n), length + 1)
  else match labelAt? whole with
  | some (name, length) => some (.label (.named name), length)
  | none =>
    match rest with
    | '.' :: fraction =>
      let (value, more) := decimalAt digits fraction
      some (.real value, length + 1 + more)
    | 'x' :: hex =>
      if digits = ['0'] && !negative then
        (patternAt? hex).map fun (value, more) => (.real value, length + 1 + more)
      else some (.number (natOf digits), length)
    | _ => some (.number (if negative then -(natOf digits : Int) else natOf digits), length)

def loneMarks : List Char := ['=', '[', ']', '\x7b', '\x7d', '<', '>', '(', ')', ',', '*', '|', ':']

-- The word that starts a text, with its length. Blanks and comments have a length and are no word.
def wordAt? (text : List Char) : Option (Option Word × Nat) :=
  let alone (found : Option (Word × Nat)) : Option (Option Word × Nat) :=
    found.map fun (word, length) => (some word, length)
  match text with
  | [] => none
  | c :: rest =>
    if isBlank c then some (none, 1)
    else if c = ';' then some (none, 1 + (rest.takeWhile fun c => !endsLine c).length)
    else if c = '/' then
      if rest.head? = some '*' then (commentLength? (rest.drop 1)).map fun length => (none, length + 2)
      else none
    else if loneMarks.contains c then some (some (.mark c), 1)
    else if c = '@' then alone ((idAt? rest).map fun (id, length) => (.global id, length + 1))
    else if c = '%' then alone ((idAt? rest).map fun (id, length) => (.register id, length + 1))
    else if c = '\x22' then
      alone ((quotedAt? rest).bind fun (inside, bytes, length) =>
        if (rest.drop (length - 1)).head? = some ':' then
          if inside.toList.contains '\x00' then none else some (.label (.named inside), length + 1)
        else some (.quoted inside bytes, length))
    else if c = '!' then
      let name := if rest.head?.any isNameStart then rest.takeWhile isLabelMark else []
      if name.isEmpty then some (some (.mark '!'), 1)
      else some (some (.metadata (String.ofList name)), name.length + 1)
    else if c = '#' || c = '^' then
      let digits := rest.takeWhile Char.isDigit
      if digits.isEmpty then none
      else alone ((idNumber? digits).map fun n =>
        (if c = '#' then .group n else .summary n, digits.length + 1))
    else if c.isDigit then
      let digits := text.takeWhile Char.isDigit
      alone (numeralAt? false digits (text.drop digits.length) text)
    else if c = '-' then
      let digits := rest.takeWhile Char.isDigit
      alone (numeralAt? true digits (rest.drop digits.length) text)
    else if c = '+' then
      let digits := rest.takeWhile Char.isDigit
      match rest.drop digits.length with
      | '.' :: fraction =>
        let (value, more) := decimalAt digits fraction
        if digits.isEmpty then none else some (some (.real value), digits.length + 2 + more)
      | _ => none
    else if c = '$' || c = '.' then
      match labelAt? text with
      | some (name, length) => some (some (.label (.named name)), length)
      | none =>
        if c = '$' then alone ((nameAt? rest).map fun (name, length) => (.comdat name, length + 1))
        else if rest.take 2 = ['.', '.'] then some (some .dots, 3)
        else none
    else if c.isAlpha || c = '_' then alone (spelledAt? text)
    else none

-- The words of a text from the place on that is reached after passing over some characters. There are none if
-- something in it starts no word.
def wordsFrom : (passing : Nat) → List Char → Option (List Word)
  | _, [] => some []
  | passing + 1, _ :: rest => wordsFrom passing rest
  | 0, c :: rest =>
    match wordAt? (c :: rest) with
    | none => none
    | some (found, length) => (wordsFrom (length - 1) rest).map (found.toList ++ ·)

def words (text : List Char) : Option (List Word) := wordsFrom 0 text

end WordC.Assembly
