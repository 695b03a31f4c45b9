import Mathlib.Data.String.Basic

namespace WordC.Text

-- Numbers are told apart by their digits.
theorem digits_injective : Function.Injective Nat.repr := by
  intro m n same
  have lists : Nat.toDigits 10 m = Nat.toDigits 10 n := by
    rw [← Nat.toList_repr, ← Nat.toList_repr, same]
  calc m = Nat.ofDigitChars 10 (Nat.toDigits 10 m) 0 := Nat.ofDigitChars_ten_toDigits.symm
    _ = Nat.ofDigitChars 10 (Nat.toDigits 10 n) 0 := by rw [lists]
    _ = n := Nat.ofDigitChars_ten_toDigits

-- What is neither a digit nor a sign is in the text of no number.
theorem not_mem_toString {c : Char} (undigit : c.isDigit = false) (unsigned : c ≠ '-') (value : Int) :
    c ∉ (toString value).toList := by
  have digits (n : Nat) : c ∉ n.repr.toList := by
    rw [Nat.toList_repr]
    intro member
    have digit := Nat.isDigit_of_mem_toDigits (by decide) (by decide) member
    rw [undigit] at digit
    cases digit
  change c ∉ value.repr.toList
  rw [Int.repr_eq_if]
  split
  · exact digits _
  · simpa [unsigned] using digits _

end WordC.Text
