/-!
# Ways an evaluation can fail

A failure is a cause together with the data that explains it. Its kind and its
wording are functions of the cause, so no other module builds an error text.
-/

set_option autoImplicit false

namespace ExactCalc

/-- How a token list can fail to be an expression. -/
inductive Malformation where
  | noToken
  | missingOperand
  | finalState (operands operators : Nat)
  deriving DecidableEq, Repr

inductive EvalError where
  | invalidToken (char : Char) (position : Nat)
  | invalidOperator (text : String)
  | divisionByZero
  | invalidExpression (why : Malformation)
  deriving DecidableEq, Repr

def Malformation.message : Malformation → String
  | .noToken => "aucun jeton"
  | .missingOperand => "opérande manquant"
  | .finalState operands operators =>
      s!"état final incohérent ({operands} opérande(s), {operators} opérateur(s))"

namespace EvalError

/-- The name under which journals and traces classify a failure. -/
def kind : EvalError → String
  | .invalidToken _ _ => "InvalidToken"
  | .invalidOperator _ => "InvalidOperator"
  | .divisionByZero => "DivisionByZero"
  | .invalidExpression _ => "InvalidExpression"

def message : EvalError → String
  | .invalidToken c position => s!"jeton invalide '{c}' en position {position}"
  | .invalidOperator text => s!"opérateur invalide: {text}"
  | .divisionByZero => "division par zéro"
  | .invalidExpression why => s!"expression invalide: {why.message}"

end EvalError

end ExactCalc
