import ExactCalc.Text.Blank
import ExactCalc.Text.Quoted

/-!
# Token policies

Which characters may stand in an expression beside digits and operators: under the
lenient policy any, under the strict one only white space. A policy is named by text
in any ASCII letter case, with white space around it.
-/

set_option autoImplicit false

namespace ExactCalc

inductive Policy where
  | lenient
  | strict
  deriving DecidableEq, Repr

/-- A text that names no policy, as it was given. -/
structure UnknownPolicy where
  text : String
  deriving DecidableEq, Repr

def UnknownPolicy.message (e : UnknownPolicy) : String :=
  "politique de jetons inconnue: " ++ Text.quote e.text ++ " (attendu: souple | strict)"

namespace Policy

def name : Policy → String
  | .lenient => "souple"
  | .strict => "strict"

def ofName? : String → Option Policy
  | "souple" | "lenient" => some .lenient
  | "strict" => some .strict
  | _ => none

def read (s : String) : Except UnknownPolicy Policy :=
  match ofName? (String.ofList ((Text.trim s.toList).map Char.toLower)) with
  | some p => .ok p
  | none => .error ⟨s⟩

/-- Whether a character that is neither a digit nor an operator may stand between tokens. -/
def admits : Policy → Char → Bool
  | .lenient, _ => true
  | .strict, c => Text.isBlank c

end Policy

end ExactCalc
