import ExactCalc.Journal.Emission
import ExactCalc.Service

/-!
# The journal of an evaluation

An evaluation is announced, then every operation tells of itself once it is carried out, and
last the evaluation tells how it ended. The refusal of an outside caller tells its cause, which
the caller does not get.
-/

set_option autoImplicit false

namespace ExactCalc

open Journaled

def Machine.tellApply (m : Machine) (o : Op) : Journaled EvalError Machine :=
  match m.operands with
  | b :: a :: rest => do
    let r ← quiet (o.eval a b)
    tell (.reduced ⟨o, a, b, r⟩)
    return ⟨r :: rest, ⟨o, a, b, r⟩ :: m.steps⟩
  | _ => quiet (.error (.invalidExpression .missingOperand))

/-- The value of a token list and the steps that lead to it. -/
def tellReduce : List Token → Journaled EvalError (Rat × List Step)
  | [] => quiet (.error (.invalidExpression .noToken))
  | ts => do
    let r ← Reducer.pushAllBy Machine.tellApply {} ts
    let m ← r.finishBy Machine.tellApply
    let v ← quiet m.value
    return (v, m.steps.reverse)

namespace Journal

def ending : Except EvalError Evaluation → Event
  | .ok e => .evaluated e.value
  | .error e => .refused e

end Journal

def tellAttempt (s : Settings) (line : String) : Journaled EvalError Evaluation := do
  let ts ← quiet (scan s.policy line)
  let (v, steps) ← tellReduce ts
  return ⟨s, ts, steps, v⟩

def tellEvaluate (s : Settings) (line : String) : Journaled EvalError Evaluation := do
  tell (.evaluating line s.policy)
  (tellAttempt s line).resume fun x => do
    tell (Journal.ending x)
    quiet x

/-- The cause of a refusal goes to the journal and no further. -/
def Refusal.tellOf {α : Type} (e : EvalError) : Journaled Refusal α := do
  tell (.clientRefused e)
  quiet (.error .generic)

def tellAnswer (s : Settings) (line : String) : Journaled Refusal Rat :=
  (tellEvaluate s line).resume fun
    | .ok e => return e.value
    | .error e => Refusal.tellOf e

namespace Journal

def ofEvaluation (s : Settings) (line : String) : List Event := (tellEvaluate s line).events

def ofAnswer (s : Settings) (line : String) : List Event := (tellAnswer s line).events

end Journal

end ExactCalc
