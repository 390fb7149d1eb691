/-!
# Numerals

Natural numbers as digit characters, without padding.
-/

namespace WholeMatch.Text

/-- The decimal digits of a number. -/
def decimal (n : Nat) : List Char := Nat.toDigits 10 n

/-- The hexadecimal digits of a number, letters in lower case. -/
def hexadecimal (n : Nat) : List Char := Nat.toDigits 16 n

example : decimal 0 = ['0'] ∧ decimal 120 = ['1', '2', '0'] ∧ hexadecimal 252 = ['f', 'c'] := by
  decide

end WholeMatch.Text
