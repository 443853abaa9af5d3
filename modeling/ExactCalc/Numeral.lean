/-!
# Decimal numerals

Written forms of exact numbers. An integer has no leading zero and carries its own
sign; a fraction is written `p/q` in lowest terms and loses its `/1`. Reading a run
of digits one character at a time is Horner's rule.
-/

set_option autoImplicit false

namespace ExactCalc.Numeral

def ofNat (n : Nat) : String := Nat.repr n

def ofInt : Int → String
  | .ofNat n => ofNat n
  | .negSucc n => "-" ++ ofNat (n + 1)

/-- The exact form of a rational: `p` for an integer, `p/q` otherwise. -/
def ofRat (r : Rat) : String :=
  if r.den = 1 then ofInt r.num else ofInt r.num ++ "/" ++ ofNat r.den

def digitValue (c : Char) : Nat := c.toNat - '0'.toNat

/-- The number read so far, extended by one more digit on the right. -/
def extend (n : Nat) (c : Char) : Nat := 10 * n + digitValue c

theorem toList_ofNat (n : Nat) : (ofNat n).toList = Nat.toDigits 10 n := by
  simp [ofNat, Nat.repr]

theorem isDigit_of_mem_toDigits {n : Nat} {c : Char} (h : c ∈ Nat.toDigits 10 n) :
    c.isDigit = true :=
  Nat.isDigit_of_mem_toDigits (by decide) (by decide) h

theorem foldl_extend (n : Nat) (ds : List Char) : ds.foldl extend n = Nat.ofDigitChars 10 ds n :=
  Nat.ofDigitChars_eq_foldl.symm

end ExactCalc.Numeral
