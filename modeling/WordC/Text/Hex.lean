namespace WordC.Text

-- Digits to base sixteen, in lower case, filled up with zeros to a least width.
def hexLower (width n : Nat) : String :=
  let digits := Nat.toDigits 16 n
  String.ofList (List.replicate (width - digits.length) '0' ++ digits)

def hexUpper (width n : Nat) : String :=
  (hexLower width n).map Char.toUpper

end WordC.Text
