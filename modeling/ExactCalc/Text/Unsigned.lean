import ExactCalc.Numeral

/-!
# Unsigned 64-bit numerals

One optional `+`, then ASCII digits, leading zeros allowed. Characters are read from
left to right and the first problem decides: a bad character is noticed before the
digit it stands for could overflow, and an overflow ends the reading at once.
-/

set_option autoImplicit false

namespace ExactCalc.Text.Unsigned

inductive Fault where
  | empty
  | badDigit
  | tooLarge
  deriving DecidableEq, Repr

def Fault.message : Fault → String
  | .empty => "cannot parse integer from empty string"
  | .badDigit => "invalid digit found in string"
  | .tooLarge => "number too large to fit in target type"

/-- The first number that does not fit. -/
def bound : Nat := Nat.pow 2 64

def readDigit (n : Nat) (c : Char) : Except Fault Nat :=
  if c.isDigit then
    if Numeral.extend n c < bound then .ok (Numeral.extend n c) else .error .tooLarge
  else .error .badDigit

def readDigits : List Char → Except Fault Nat
  | [] => .error .badDigit
  | cs => cs.foldlM readDigit 0

/-- A sign alone is a bad digit, not a missing one. -/
def parse : List Char → Except Fault Nat
  | [] => .error .empty
  | '+' :: cs => readDigits cs
  | cs => readDigits cs

end ExactCalc.Text.Unsigned
