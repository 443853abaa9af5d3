import ExactCalc.Numeral

/-!
# Decimal readings

A reading shows a rational with a fixed number of decimals, cut off and never rounded.
It is written from the scaled integer `r * 10 ^ digits` truncated toward zero, and
takes its sign from that integer, so a value that is cut to zero has none.
-/

set_option autoImplicit false

namespace ExactCalc.Reading

/-- Exponents are 32 bits wide. -/
def exponentBound : Nat := Nat.pow 2 32

/-- One unit of the integer part, counted in units of the last decimal. Of an exponent that
is too wide only the low bits count. -/
def unit (digits : Nat) : Nat := Nat.pow 10 (digits % exponentBound)

def scaled (r : Rat) (digits : Nat) : Int := (r.num * unit digits).tdiv r.den

/-- A number below `10 ^ width` with leading zeros up to `width` digits. -/
def padded (width n : Nat) : String :=
  String.ofList ((Nat.toDigits 10 n).leftpad width '0')

def ofScaled (z : Int) (digits : Nat) : String :=
  let whole := (if z < 0 then "-" else "") ++ Numeral.ofNat (z.natAbs / unit digits)
  if digits = 0 then whole else whole ++ "." ++ padded digits (z.natAbs % unit digits)

def ofRat (r : Rat) (digits : Nat) : String := ofScaled (scaled r digits) digits

end ExactCalc.Reading
