import WordC.Text.Quoted

namespace WordC

-- A value that comes with an error from outside. A decimal is its digits times a power of ten; zero has a sign
-- too.
inductive Datum where
  | nothing
  | truth (value : Bool)
  | number (value : Int)
  | decimal (negative : Bool) (digits : Nat) (exponent : Int)
  | unbounded (negative : Bool)
  | undefined
  | text (value : String)
  | list (values : List Datum)
  | fields (entries : List (String × Datum))
deriving Inhabited

namespace Datum

def exponentText (exponent : Int) : String :=
  let size := toString exponent.natAbs
  (if exponent < 0 then "e-" else "e+") ++ (if size.length < 2 then "0" ++ size else size)

-- A decimal that is not zero, from its digits without zeros at the end and the place of its point among them.
-- It is written in full unless the point is far off.
def pointedText (digits : List Char) (point : Int) : String :=
  let zeros (n : Nat) : List Char := List.replicate n '0'
  if -4 < point && point ≤ 16 then
    let before := point.toNat
    let whole := if before = 0 then ['0'] else digits.take before ++ zeros (before - digits.length)
    let behind := zeros (-point).toNat ++ digits.drop before
    String.ofList (whole ++ '.' :: (if behind.isEmpty then ['0'] else behind))
  else
    let behind := digits.drop 1
    String.ofList (digits.take 1 ++ (if behind.isEmpty then [] else '.' :: behind)) ++ exponentText (point - 1)

def signText (negative : Bool) : String := if negative then "-" else ""

def decimalText (digits : Nat) (exponent : Int) : String :=
  if digits = 0 then "0.0"
  else
    let all := (toString digits).toList
    let kept := (all.reverse.dropWhile (· = '0')).reverse
    pointedText kept (all.length + exponent)

mutual

def among : Datum → String
  | .nothing => "None"
  | .truth value => if value then "True" else "False"
  | .number value => toString value
  | .decimal negative digits exponent => signText negative ++ decimalText digits exponent
  | .unbounded negative => signText negative ++ "inf"
  | .undefined => "nan"
  | .text value => Text.quoted value
  | .list values => "[" ++ ", ".intercalate (allAmong values) ++ "]"
  | .fields entries => "\x7b" ++ ", ".intercalate (fieldsAmong entries) ++ "\x7d"

def allAmong : List Datum → List String
  | [] => []
  | value :: rest => value.among :: allAmong rest

def fieldsAmong : List (String × Datum) → List String
  | [] => []
  | (name, value) :: rest => (Text.quoted name ++ ": " ++ value.among) :: fieldsAmong rest

end

def alone : Datum → String
  | .text value => value
  | value => value.among

def isNothing : Datum → Bool
  | .nothing => true
  | _ => false

def isEmpty : Datum → Bool
  | .nothing => true
  | .truth value => !value
  | .number value => value = 0
  | .decimal _ digits _ => digits = 0
  | .unbounded _ | .undefined => false
  | .text value => value.isEmpty
  | .list values => values.isEmpty
  | .fields entries => entries.isEmpty

def int? : Datum → Option Int
  | .truth value => some (if value then 1 else 0)
  | .number value => some value
  | _ => none

def isInexact : Datum → Bool
  | .decimal _ _ _ | .unbounded _ | .undefined => true
  | _ => false

def natOfDigits (digits : List Char) : Nat := (String.ofList digits).toNat?.getD 0

def exponentOf : List Char → Int
  | '-' :: digits => -(natOfDigits digits : Int)
  | '+' :: digits => natOfDigits digits
  | digits => natOfDigits digits

-- Read a number that is written with a point or an exponent, or is none at all.
def ofNumeral (numeral : List Char) : Datum :=
  let negative := numeral.head? = some '-'
  let size := if negative then numeral.drop 1 else numeral
  if size.head? = some 'I' then .unbounded negative
  else if size.head? = some 'N' then .undefined
  else
    let isMark (c : Char) : Bool := c = 'e' || c = 'E'
    let pointed := size.takeWhile fun c => !isMark c
    let whole := pointed.takeWhile (· ≠ '.')
    let behind := pointed.drop (whole.length + 1)
    .decimal negative (natOfDigits (whole ++ behind))
      (exponentOf (size.drop (pointed.length + 1)) - behind.length)

end Datum

end WordC
