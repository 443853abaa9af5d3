import ExactCalc.Failure
import ExactCalc.Policy
import ExactCalc.Token

/-!
# Scanning a line into tokens

One character at a time, with the number under construction in the state. A maximal
run of ASCII digits is one literal, whatever its length; a character that is skipped
still ends the run before it. Positions count characters.
-/

set_option autoImplicit false

namespace ExactCalc

/-- What has been read: the number of characters, the finished tokens, latest first,
and the value of the digit run that has not ended yet. -/
structure Scan where
  position : Nat := 0
  tokens : List Token := []
  run : Option Nat := none
  deriving DecidableEq, Repr

namespace Scan

/-- The tokens when the current run ends here, latest first. -/
def closed (s : Scan) : List Token :=
  match s.run with
  | none => s.tokens
  | some n => .num n :: s.tokens

def step (p : Policy) (s : Scan) (c : Char) : Except EvalError Scan :=
  if c.isDigit then
    .ok ⟨s.position + 1, s.tokens, some (Numeral.extend (s.run.getD 0) c)⟩
  else match Op.ofChar? c with
    | some o => .ok ⟨s.position + 1, .op o :: s.closed, none⟩
    | none =>
      if p.admits c then .ok ⟨s.position + 1, s.closed, none⟩
      else .error (.invalidToken c s.position)

def advance (p : Policy) (s : Scan) (cs : List Char) : Except EvalError Scan :=
  cs.foldlM (step p) s

def result (s : Scan) : List Token := s.closed.reverse

theorem advance_append (p : Policy) (s : Scan) (as bs : List Char) :
    s.advance p (as ++ bs) = (s.advance p as).bind fun t => t.advance p bs := by
  simp only [advance, List.foldlM_append]
  rfl

end Scan

/-- The tokens of a line, or the first character that the policy refuses. -/
def scan (p : Policy) (s : String) : Except EvalError (List Token) :=
  (Scan.advance p {} s.toList).map Scan.result

end ExactCalc
