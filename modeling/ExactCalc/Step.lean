import ExactCalc.Failure
import ExactCalc.Token

/-!
# Carrying out one operation

An operator takes its left operand first. Division by zero is refused before any
quotient is formed, so every result is an exact rational. A step is an operation
that has been carried out, kept with its operands and its result.
-/

set_option autoImplicit false

namespace ExactCalc

def Op.eval : Op → Rat → Rat → Except EvalError Rat
  | .add, a, b => .ok (a + b)
  | .sub, a, b => .ok (a - b)
  | .mul, a, b => .ok (a * b)
  | .div, a, b => if b = 0 then .error .divisionByZero else .ok (a / b)

/-- A literal in operator position is refused under its written form. -/
def Token.eval : Token → Rat → Rat → Except EvalError Rat
  | .op o, a, b => o.eval a b
  | .num r, _, _ => .error (.invalidOperator (Token.num r).text)

/-- One line of working: `a op b = r`. -/
def Token.lineText (t : Token) (a b r : Rat) : String :=
  Numeral.ofRat a ++ " " ++ t.text ++ " " ++ Numeral.ofRat b ++ " = " ++ Numeral.ofRat r

structure Step where
  op : Op
  left : Rat
  right : Rat
  result : Rat
  deriving DecidableEq, Repr

def Step.text (s : Step) : String := (Token.op s.op).lineText s.left s.right s.result

theorem Step.text_eq (s : Step) :
    s.text = Numeral.ofRat s.left ++ " " ++ s.op.text ++ " " ++ Numeral.ofRat s.right ++ " = " ++
      Numeral.ofRat s.result := rfl

/-- The result of a step is what its operator yields on its operands. -/
def Step.Sound (s : Step) : Prop := s.op.eval s.left s.right = .ok s.result

theorem Op.eval_error_iff (o : Op) (a b : Rat) (e : EvalError) :
    o.eval a b = .error e ↔ o = .div ∧ b = 0 ∧ e = .divisionByZero := by
  cases o <;> simp [Op.eval]
  split <;> simp_all [eq_comm]

end ExactCalc
