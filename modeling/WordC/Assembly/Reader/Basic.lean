import WordC.Assembly.Source

namespace WordC.Assembly

-- The reader goes through the words of a text and takes down what they define. `next` is the number of the next
-- register or block without a name.
structure Reading where
  words : List Word
  source : Source := {}
  next : Nat := 0

-- Reading stops at the first word that does not fit.
abbrev Reader := StateT Reading Option

namespace Reader

def word : Reader Word := do
  let s ← get
  match s.words with
  | [] => failure
  | first :: rest =>
    set { s with words := rest }
    return first

def ahead? : Reader (Option Word) := return (← get).words.head?

def require (condition : Bool) : Reader Unit := if condition then return () else failure

def expect (wanted : Word) : Reader Unit := do require ((← word) = wanted)

def mark (c : Char) : Reader Unit := expect (.mark c)

def letters (spelled : String) : Reader Unit := expect (.letters spelled)

def took (wanted : Word) : Reader Bool := do
  if (← ahead?) = some wanted then
    let _ ← word
    return true
  else return false

def tookMark (c : Char) : Reader Bool := took (.mark c)

def oneOf? (wanted : List String) : Reader (Option String) := do
  match ← ahead? with
  | some (.letters spelled) =>
    if wanted.contains spelled then
      let _ ← word
      return some spelled
    else return none
  | _ => return none

def tookOne (wanted : List String) : Reader Bool := return (← oneOf? wanted).isSome

def oneOf (wanted : List String) : Reader String := do
  match ← oneOf? wanted with
  | some spelled => return spelled
  | none => failure

def note (change : Source → Source) : Reader Unit :=
  modify fun s => { s with source := change s.source }

def types : Reader Types := return (← get).source.types

-- The words that are left bound how often something can be repeated.
def bound : Reader Nat := return (← get).words.length + 1

-- Repeat until there is nothing more to take.
def repeated (step : Reader Bool) : Nat → Reader Unit
  | 0 => return ()
  | fuel + 1 => do if ← step then repeated step fuel else return ()

-- Everything that can be taken, one after the other.
def collected (step : Reader (Option α)) : Nat → Reader (List α)
  | 0 => return []
  | fuel + 1 => do
    match ← step with
    | some first => return first :: (← collected step fuel)
    | none => return []

-- Things with commas between them, at least one.
def separatedWithin (one : Reader α) : Nat → Reader (List α)
  | 0 => failure
  | fuel + 1 => do
    let first ← one
    if ← tookMark ',' then return first :: (← separatedWithin one fuel) else return [first]

def separated (one : Reader α) : Reader (List α) := do separatedWithin one (← bound)

-- Things with commas between them up to a closing mark, which may come at once.
def upTo (close : Char) (one : Reader α) : Reader (List α) := do
  if ← tookMark close then return []
  let all ← separated one
  mark close
  return all

def inBrackets (inside : Reader α) : Reader α := do
  mark '('
  let found ← inside
  mark ')'
  return found

def number : Reader Int := do
  match ← word with
  | .number n => return n
  | _ => failure

def natural : Reader Nat := do
  let n ← number
  if n < 0 then failure else return n.toNat

-- Most numbers without a sign have to fit into 32 bits.
def count : Reader Nat := do
  let n ← natural
  if n ≤ 0xffffffff then return n else failure

def quoted : Reader String := do
  match ← word with
  | .quoted text _ => return text
  | _ => failure

-- A number that is given has to be no less than the next one.
def claim (given : Option Id) : Reader Id := do
  let s ← get
  match given with
  | some (.named name) =>
    if name.isEmpty then
      set { s with next := s.next + 1 }
      return .numbered s.next
    else return .named name
  | some (.numbered n) =>
    require (s.next ≤ n)
    set { s with next := n + 1 }
    return .numbered n
  | none =>
    set { s with next := s.next + 1 }
    return .numbered s.next

end Reader

end WordC.Assembly
