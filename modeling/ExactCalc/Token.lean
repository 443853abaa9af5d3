import ExactCalc.Numeral

/-!
# Tokens

An expression is a list of literals and binary operators. Literals are arbitrary
rationals: a typed line only yields non-negative integers, but a caller may hand
over any token list.
-/

set_option autoImplicit false

namespace ExactCalc

inductive Op where
  | add
  | sub
  | mul
  | div
  deriving DecidableEq, Repr

inductive Token where
  | num (value : Rat)
  | op (o : Op)
  deriving DecidableEq, Repr

namespace Op

def symbol : Op → Char
  | .add => '+'
  | .sub => '-'
  | .mul => '*'
  | .div => '/'

def ofChar? : Char → Option Op
  | '+' => some .add
  | '-' => some .sub
  | '*' => some .mul
  | '/' => some .div
  | _ => none

/-- The larger number binds more tightly. -/
def precedence : Op → Nat
  | .add | .sub => 1
  | .mul | .div => 2

def text (o : Op) : String := String.singleton o.symbol

theorem ofChar?_symbol (o : Op) : ofChar? o.symbol = some o := by
  cases o <;> rfl

theorem precedence_eq (o : Op) : o.precedence = 1 ∨ o.precedence = 2 := by
  cases o <;> simp [precedence]

theorem precedence_eq_one_iff (o : Op) : o.precedence = 1 ↔ o = .add ∨ o = .sub := by
  cases o <;> simp [precedence]

theorem precedence_eq_two_iff (o : Op) : o.precedence = 2 ↔ o = .mul ∨ o = .div := by
  cases o <;> simp [precedence]

theorem symbol_not_digit (o : Op) : o.symbol.isDigit = false := by
  cases o <;> rfl

end Op

namespace Token

def precedence? : Token → Option Nat
  | .num _ => none
  | .op o => some o.precedence

def text : Token → String
  | .num r => Numeral.ofRat r
  | .op o => o.text

/-- The tokens of a list, one space between neighbours. -/
def listText (ts : List Token) : String := " ".intercalate (ts.map text)

end Token

end ExactCalc
