/-!
# Character classes as ranges

A class of characters is a list of closed code point ranges.
-/

set_option autoImplicit false

namespace ExactCalc.Text

abbrev Ranges := List (Nat × Nat)

def Ranges.has (rs : Ranges) (c : Char) : Bool :=
  rs.any fun r => r.1 ≤ c.toNat && c.toNat ≤ r.2

end ExactCalc.Text
