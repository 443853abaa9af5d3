import ExactCalc.Step

/-!
# Expressions and their grammar

A term is literals joined by `*` and `/`, a sum is terms joined by `+` and `-`, and both
group to the left. The grammar relates token lists to trees; a tree has a value by the
arithmetic of rationals and the steps that lead to it, operands before the operation.
Nothing here is computed by the calculator.
-/

set_option autoImplicit false

namespace ExactCalc

/-- What an operation comes to. There is no quotient by zero. -/
def Op.value? : Op → Rat → Rat → Option Rat
  | .add, a, b => some (a + b)
  | .sub, a, b => some (a - b)
  | .mul, a, b => some (a * b)
  | .div, a, b => if b = 0 then none else some (a / b)

theorem Op.eval_eq_ok_iff (o : Op) (a b v : Rat) : o.eval a b = .ok v ↔ o.value? a b = some v := by
  cases o <;> simp only [eval, value?, Except.ok.injEq, Option.some.injEq]
  split <;> simp

/-- Where there is no value, the cause is a zero divisor. -/
theorem Op.eval_eq_error_iff (o : Op) (a b : Rat) :
    o.eval a b = .error .divisionByZero ↔ o.value? a b = none := by
  cases o <;> simp only [eval, value?, reduceCtorEq]
  split <;> simp

theorem Op.value?_eq_none_iff (o : Op) (a b : Rat) : o.value? a b = none ↔ o = .div ∧ b = 0 := by
  cases o <;> simp [value?]

inductive Expr where
  | lit (value : Rat)
  | node (o : Op) (left right : Expr)
  deriving DecidableEq, Repr

namespace Expr

/-- The exact value, unless a divisor is zero. -/
def value? : Expr → Option Rat
  | lit v => some v
  | node o l r => l.value?.bind fun a => r.value?.bind fun b => o.value? a b

/-- The operations in post-order, as far as their operands have values. -/
def steps : Expr → List Step
  | lit _ => []
  | node o l r =>
    l.steps ++ r.steps ++
      match l.value?, r.value?, (node o l r).value? with
      | some a, some b, some c => [⟨o, a, b, c⟩]
      | _, _, _ => []

def operators : Expr → Nat
  | lit _ => 0
  | node _ l r => l.operators + r.operators + 1

end Expr

/-- Literals joined by `*` and `/`. -/
inductive IsTerm : List Token → Expr → Prop where
  | lit (v : Rat) : IsTerm [.num v] (.lit v)
  | node {ts : List Token} {l : Expr} (o : Op) (v : Rat) :
      IsTerm ts l → o = .mul ∨ o = .div → IsTerm (ts ++ [.op o, .num v]) (.node o l (.lit v))

/-- Terms joined by `+` and `-`. -/
inductive IsSum : List Token → Expr → Prop where
  | term {ts : List Token} {e : Expr} : IsTerm ts e → IsSum ts e
  | node {ts us : List Token} {l r : Expr} (o : Op) :
      IsSum ts l → o = .add ∨ o = .sub → IsTerm us r → IsSum (ts ++ .op o :: us) (.node o l r)

/-- A literal, then any number of operators each followed by a literal. -/
inductive IsInfix : List Token → Prop where
  | lit (v : Rat) : IsInfix [.num v]
  | join {ts : List Token} (v : Rat) (o : Op) : IsInfix ts → IsInfix (.num v :: .op o :: ts)

end ExactCalc
