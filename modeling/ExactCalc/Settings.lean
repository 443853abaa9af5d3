import ExactCalc.Policy
import ExactCalc.Text.Unsigned

/-!
# Settings and their overrides

A setting is a token policy and a number of decimals that never exceeds a fixed bound.
Overrides come as texts. One that cannot be read is left out with a warning and does
not affect the other.
-/

set_option autoImplicit false

namespace ExactCalc

def maxDigits : Nat := 200

structure Settings where
  policy : Policy
  digits : Nat
  digits_le : digits ≤ maxDigits
  deriving DecidableEq, Repr

/-- An override that was left out, and why. -/
inductive Warning where
  | policyIgnored (e : UnknownPolicy)
  | digitsIgnored (text : String) (fault : Text.Unsigned.Fault)
  deriving DecidableEq, Repr

namespace Settings

def standard : Settings := ⟨.lenient, 20, by decide⟩

def withPolicy (s : Settings) (p : Policy) : Settings := { s with policy := p }

def strict : Settings := standard.withPolicy .strict

/-- Larger requests are cut down to the bound. -/
def withDigits (s : Settings) (n : Nat) : Settings :=
  ⟨s.policy, min n maxDigits, Nat.min_le_right n maxDigits⟩

def isStrict (s : Settings) : Bool := s.policy = .strict

def overridePolicy (s : Settings) (text : String) : Settings × List Warning :=
  match Policy.read text with
  | .ok p => (s.withPolicy p, [])
  | .error e => (s, [.policyIgnored e])

def overrideDigits (s : Settings) (text : String) : Settings × List Warning :=
  match Text.Unsigned.parse (Text.trim text.toList) with
  | .ok n => (s.withDigits n, [])
  | .error fault => (s, [.digitsIgnored text fault])

/-- Both overrides in turn, the policy first; a missing one changes nothing. -/
def overrides (s : Settings) (policy digits : Option String) : Settings × List Warning :=
  let a := policy.elim (s, []) s.overridePolicy
  let b := digits.elim (a.1, []) a.1.overrideDigits
  (b.1, a.2 ++ b.2)

end Settings

end ExactCalc
