import WordC.Assembly.Word

namespace WordC.Assembly

-- A number whose digits are binary: so many times a power of two. Every finite number that a machine holds is one.
structure Binary where
  digits : Nat
  exponent : Int

-- What a machine can hold of such numbers: how many digits, the least exponent, and a power of two above them all.
structure Precision where
  digits : Nat
  least : Int
  above : Int

namespace Binary

-- Divide, rounding to the nearest whole number, and to the even one where two are as near.
def rounded (n d : Nat) : Nat :=
  let q := n / d
  let r := n % d
  if d < 2 * r || (2 * r = d && q % 2 = 1) then q + 1 else q

-- A fraction scaled by a power of two, as a fraction again.
def scaled (n d : Nat) (exponent : Int) : Nat × Nat :=
  if 0 ≤ exponent then (n <<< exponent.toNat, d) else (n, d <<< (-exponent).toNat)

-- The number of so many digits that is nearest to a fraction above zero.
def nearest (precision : Precision) (n d : Nat) : Binary :=
  let guess : Int := n.log2 - d.log2 - precision.digits + 1
  let (a, b) := scaled n d (-guess)
  let first := if a / b < 1 <<< (precision.digits - 1) then guess - 1 else guess
  let exponent := if first < precision.least then precision.least else first
  let (a, b) := scaled n d (-exponent)
  ⟨rounded a b, exponent⟩

def fits (precision : Precision) (x : Binary) : Bool :=
  let zeros := (List.range x.digits.log2).takeWhile fun n => !x.digits.testBit n
  let digits := x.digits >>> zeros.length
  x.digits = 0 || (digits.log2 < precision.digits && precision.least ≤ x.exponent + zeros.length
    && (x.digits.log2 : Int) + x.exponent < precision.above)

end Binary

namespace Precision

def double : Precision := ⟨53, -1074, 1024⟩

def single : Precision := ⟨24, -149, 128⟩

def half : Precision := ⟨11, -24, 16⟩

def brain : Precision := ⟨8, -133, 128⟩

end Precision

-- No decimal with so large a power of ten is finite, and none with so small a one is told from zero.
def decimalReach : Nat := 400

-- The number that a decimal comes to, unless it is out of reach.
def doubleOfDecimal? (digits : Nat) (exponent : Int) : Option Binary :=
  let places := (toString digits).length
  if digits = 0 || exponent + places < -(decimalReach : Int) then some ⟨0, 0⟩
  else if (decimalReach : Int) < exponent then none
  else some (Binary.nearest .double (if 0 ≤ exponent then digits * Nat.pow 10 exponent.toNat else digits)
    (if 0 ≤ exponent then 1 else Nat.pow 10 (-exponent).toNat))

-- The number behind the 64 bits that hold it, if it is finite.
def doubleOfBits? (bits : Nat) : Option Binary :=
  let fraction := bits % 0x10000000000000
  let exponent := bits / 0x10000000000000 % 0x800
  if exponent = 0x7ff then none
  else if exponent = 0 then some ⟨fraction, -1074⟩
  else some ⟨fraction + 0x10000000000000, (exponent : Int) - 1075⟩

-- The forms of bits that only one type of numbers takes.
def formOf (word : String) : Char :=
  match word with
  | "half" => 'H'
  | "bfloat" => 'R'
  | "x86_fp80" => 'K'
  | "fp128" => 'L'
  | "ppc_fp128" => 'M'
  | _ => usualForm

def precisionOf? (word : String) : Option Precision :=
  match word with
  | "half" => some .half
  | "bfloat" => some .brain
  | "float" => some .single
  | "double" => some .double
  | _ => none

-- A numeral is of a type if the type holds its value without loss. What is not finite is held by all.
def Numeral.fits (word : String) (numeral : Numeral) : Bool :=
  let held (value : Option Binary) : Bool :=
    (precisionOf? word).any fun precision => value.all (Binary.fits precision)
  match numeral with
  | .decimal digits exponent =>
    let value := doubleOfDecimal? digits exponent
    held (value.filter (Binary.fits .double))
  | .pattern form bits =>
    if form = usualForm then held (doubleOfBits? bits) else form = formOf word

end WordC.Assembly
