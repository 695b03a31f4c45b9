namespace WordC.Text

-- Control sequences of terminals: an escape, an opening bracket, parameters, fillers, and one final character.

def isParameterMark (c : Char) : Bool := '0' ≤ c && c ≤ '?'

def isFiller (c : Char) : Bool := ' ' ≤ c && c ≤ '/'

def isFinal (c : Char) : Bool := '@' ≤ c && c ≤ '~'

def controlLength : List Char → Nat
  | '\x1b' :: '[' :: rest =>
    let marks := (rest.takeWhile isParameterMark).length
    let fillers := ((rest.drop marks).takeWhile isFiller).length
    if (rest.drop (marks + fillers)).head?.any isFinal then marks + fillers + 3 else 0
  | _ => 0

-- The text without its control sequences, from the place on that is reached after passing over some
-- characters.
def dropControls : (passing : Nat) → List Char → List Char
  | _, [] => []
  | passing + 1, _ :: rest => dropControls passing rest
  | 0, c :: rest =>
    match controlLength (c :: rest) with
    | 0 => c :: dropControls 0 rest
    | length + 1 => dropControls length rest

def plain (text : String) : String := String.ofList (dropControls 0 text.toList)

end WordC.Text
