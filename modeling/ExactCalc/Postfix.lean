import ExactCalc.Expression
import ExactCalc.Machine

/-!
# Postfix order and its evaluation

The same tokens, rearranged so that every operator comes after its operands. Literals
keep their order; an operator is held back until one arrives that does not bind more
tightly, or the list ends. Nothing is computed while the order is found. Evaluating it
afterwards takes one stack of operands and the arithmetic of rationals, and looks at no
operator but the one at hand.
-/

set_option autoImplicit false

namespace ExactCalc

/-- Whether an operator that is held back goes before one that arrives. A `+` or `-` waits for
a `*` or `/`. -/
def Op.goesBefore : Op → Op → Bool
  | .add, .mul | .add, .div | .sub, .mul | .sub, .div => false
  | _, _ => true

theorem Op.goesBefore_eq (o p : Op) : o.goesBefore p = decide (p.precedence ≤ o.precedence) := by
  cases o <;> cases p <;> rfl

namespace Token

/-- The rest of the order, given the operators that are held back, latest first. -/
def postfixFrom (held : List Op) : List Token → List Token
  | [] => held.map .op
  | .num r :: ts => .num r :: postfixFrom held ts
  | .op o :: ts =>
    (held.takeWhile (·.goesBefore o)).map .op ++
      postfixFrom (o :: held.dropWhile (·.goesBefore o)) ts

theorem postfixFrom_cons_op (held : List Op) (o : Op) (ts : List Token) :
    postfixFrom held (.op o :: ts) =
      (held.takeWhile (o.precedence ≤ ·.precedence)).map .op ++
        postfixFrom (o :: held.dropWhile (o.precedence ≤ ·.precedence)) ts := by
  simp only [postfixFrom, Op.goesBefore_eq]

def postfixOrder (ts : List Token) : List Token := postfixFrom [] ts

/-- What a sequence comes to on the operands at hand, top first, its steps in order. -/
def evalFrom (operands : List Rat) : List Token → Reduction
  | [] =>
    match operands with
    | [v] => ⟨[], .ok v⟩
    | rs => ⟨[], .error (.invalidExpression (.finalState rs.length 0))⟩
  | .num v :: ts => evalFrom (v :: operands) ts
  | .op o :: ts =>
    match operands with
    | b :: a :: rest =>
      match o.value? a b with
      | some r => (evalFrom (r :: rest) ts).after [⟨o, a, b, r⟩]
      | none => ⟨[], .error .divisionByZero⟩
    | _ => ⟨[], .error (.invalidExpression .missingOperand)⟩

def evalPostfix (ts : List Token) : Reduction := evalFrom [] ts

end Token

end ExactCalc
