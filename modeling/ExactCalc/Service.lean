import ExactCalc.Evaluation

/-!
# Answering outside callers

A caller gets the value or one refusal that is the same for every cause.
-/

set_option autoImplicit false

namespace ExactCalc

structure Refusal where
  code : Nat
  message : String
  reason : String
  deriving DecidableEq, Repr

def Refusal.generic : Refusal := ⟨400, "Invalid expression provided", "Bad Request"⟩

def Refusal.text (r : Refusal) : String := s!"{r.code} {r.reason}: {r.message}"

def answer (s : Settings) (line : String) : Except Refusal Rat :=
  match evaluate s line with
  | .ok e => .ok e.value
  | .error _ => .error Refusal.generic

end ExactCalc
