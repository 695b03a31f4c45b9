namespace WordC

-- A place in a named text. Lines and columns count from one; a location that no text was read at may hold
-- any numbers.
structure Location where
  file : String
  line : Int
  column : Int
deriving DecidableEq, Repr

def Location.text (place : Location) : String :=
  s!"{place.file}:{place.line}:{place.column}"

-- A place inside one text: its line and column, the number of characters before it, and the number of those before its
-- line.
structure Position where
  line : Nat
  column : Nat
  offset : Nat
  lineStart : Nat
deriving DecidableEq, Repr

def Position.start : Position := ⟨1, 1, 0, 0⟩

-- Only a line feed starts a new line.
def Position.next (place : Position) (c : Char) : Position :=
  if c = '\n' then ⟨place.line + 1, 1, place.offset + 1, place.offset + 1⟩
  else ⟨place.line, place.column + 1, place.offset + 1, place.lineStart⟩

def Position.past (place : Position) (passed : List Char) : Position :=
  passed.foldl Position.next place

def Position.inFile (place : Position) (file : String) : Location :=
  ⟨file, place.line, place.column⟩

end WordC
