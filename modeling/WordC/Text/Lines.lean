namespace WordC.Text

-- Pieces of a text between line feeds. There is always one more piece than there are line feeds.
def splitLines : List Char → List (List Char)
  | [] => [[]]
  | c :: rest =>
    if c = '\n' then [] :: splitLines rest
    else match splitLines rest with
      | [] => [[c]]
      | line :: lines => (c :: line) :: lines

def lines (text : String) : List String :=
  (splitLines text.toList).map String.ofList

-- Line `n` of a list of lines, counted from one. Numbers outside the list name no line.
def lineAt? (lines : List String) (n : Int) : Option String :=
  if 0 < n then lines[n.toNat - 1]? else none

def slice (text : List Char) (start stop : Nat) : List Char := (text.take stop).drop start

-- Where the line that starts at an offset ends: at the next line feed, or with the text.
def lineEnd (text : List Char) (start : Nat) : Nat :=
  match (text.drop start).idxOf? '\n' with
  | none => text.length
  | some ahead => start + ahead

def lineFrom (text : List Char) (start : Nat) : List Char := slice text start (lineEnd text start)

-- Every way to end a line becomes a line feed: a carriage return, alone or before a line feed.
def unifyLineEnds : List Char → List Char
  | [] => []
  | '\r' :: '\n' :: rest => '\n' :: unifyLineEnds rest
  | c :: rest => (if c = '\r' then '\n' else c) :: unifyLineEnds rest

end WordC.Text
