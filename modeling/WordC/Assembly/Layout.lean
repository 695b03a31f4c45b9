namespace WordC.Assembly.Layout

-- The data layout of a machine is a text of specifications with dashes between them, and the parts of a
-- specification have colons between them.

def number? (part : String) : Option Nat :=
  if !part.isEmpty && part.toList.all Char.isDigit then part.toNat? else none

-- Sizes and address spaces have 24 bits; a size is not zero.
def space? (part : String) : Option Nat := (number? part).filter (· < 0x1000000)

def size? (part : String) : Option Nat := (space? part).filter (· ≠ 0)

def isPowerOfTwo (n : Nat) : Bool := n ≠ 0 && n &&& (n - 1) = 0

-- An alignment is a power of two in bytes, and is given in bits.
def alignment? (part : String) : Option Nat :=
  (number? part).filter fun n => n < 0x10000 && n % 8 = 0 && isPowerOfTwo (n / 8)

-- Aggregates may have no alignment at all.
def looseAlignment? (part : String) : Option Nat :=
  if number? part = some 0 then some 0 else alignment? part

-- The least alignment, and a preferred one that is no less.
def alignments (least? : String → Option Nat) : List String → Bool
  | [least] => (least? least).isSome
  | [least, preferred] =>
    match least? least, alignment? preferred with
    | some a, some b => a ≤ b
    | _, _ => false
  | _ => false

-- Bytes have to be aligned to bytes.
def primitive (isInt : Bool) : List String → Bool
  | size :: rest =>
    (size? size).any fun bits =>
      alignments alignment? rest
        && !(isInt && bits = 8 && (rest.head?.bind alignment?) != some 8)
  | [] => false

def aggregate : List String → Bool
  | size :: rest => (size = "" || number? size = some 0) && alignments looseAlignment? rest
  | [] => false

def pointer : List String → Bool
  | space :: size :: rest =>
    (space = "" || (space? space).isSome) && (size? size).isSome && alignments alignment? (rest.take 2)
      && (match rest.drop 2 with
        | [] => true
        | [index] =>
          match size? index, size? size with
          | some a, some b => a ≤ b
          | _, _ => false
        | _ => false)
  | _ => false

def manglings : List String := ["e", "l", "o", "m", "w", "x", "a"]

def specification (text : String) : Bool :=
  match text.toList with
  | [] => false
  | 'n' :: 'i' :: rest =>
    match (String.ofList rest).splitOn ":" with
    | "" :: spaces => !spaces.isEmpty && spaces.all fun space => (space? space).any (· ≠ 0)
    | _ => false
  | c :: rest =>
    let parts := (String.ofList rest).splitOn ":"
    let whole := String.ofList rest
    match c with
    | 'i' => primitive true parts
    | 'f' | 'v' => primitive false parts
    | 'a' => aggregate parts
    | 'p' => pointer parts
    | 's' => true
    | 'e' | 'E' => rest.isEmpty
    | 'n' => parts.all fun part => (size? part).isSome
    | 'S' => (alignment? whole).isSome
    | 'F' => (rest.head?.any fun c => c = 'i' || c = 'n') && (alignment? (String.ofList (rest.drop 1))).isSome
    | 'P' | 'A' | 'G' => (space? whole).isSome
    | 'm' =>
      match parts with
      | ["", mangling] => manglings.contains mangling
      | _ => false
    | _ => false

-- The empty layout leaves everything to the machine.
def accepted (text : String) : Bool := text.isEmpty || (text.splitOn "-").all specification

end WordC.Assembly.Layout
