import ExactCalc.Step

/-!
# A one-stack machine that keeps its steps

Literals are pushed; an operator takes its right operand from the top and its left
operand from below it, and leaves the result. Every operation carried out is recorded.
When the machine halts, the record up to that point is kept with the cause.
-/

set_option autoImplicit false

namespace ExactCalc

/-- Operands, top first, and the steps carried out, latest first. -/
structure Machine where
  operands : List Rat := []
  steps : List Step := []
  deriving DecidableEq, Repr

/-- The cause of a halt and the steps carried out before it, latest first. -/
structure Halt where
  error : EvalError
  steps : List Step
  deriving DecidableEq, Repr

namespace Machine

def put (m : Machine) (r : Rat) : Machine := { m with operands := r :: m.operands }

def apply (m : Machine) (o : Op) : Except Halt Machine :=
  match m.operands with
  | b :: a :: rest =>
    match o.eval a b with
    | .ok r => .ok ⟨r :: rest, ⟨o, a, b, r⟩ :: m.steps⟩
    | .error e => .error ⟨e, m.steps⟩
  | _ => .error ⟨.invalidExpression .missingOperand, m.steps⟩

def feed (m : Machine) : Token → Except Halt Machine
  | .num r => .ok (m.put r)
  | .op o => m.apply o

def run (m : Machine) (ts : List Token) : Except Halt Machine := ts.foldlM feed m

/-- The value, if exactly one operand is left. -/
def value (m : Machine) : Except EvalError Rat :=
  match m.operands with
  | [v] => .ok v
  | rs => .error (.invalidExpression (.finalState rs.length 0))

theorem run_cons (m : Machine) (t : Token) (ts : List Token) :
    m.run (t :: ts) = (m.feed t).bind fun n => n.run ts := by
  simp only [run, List.foldlM_cons]
  rfl

theorem run_append (m : Machine) (ts us : List Token) :
    m.run (ts ++ us) = (m.run ts).bind fun n => n.run us := by
  simp only [run, List.foldlM_append]
  rfl

end Machine

/-- What a run did, in order, and how it ended. -/
structure Reduction where
  steps : List Step
  outcome : Except EvalError Rat

namespace Reduction

def ofRun : Except Halt Machine → Reduction
  | .ok m => ⟨m.steps.reverse, m.value⟩
  | .error h => ⟨h.steps.reverse, .error h.error⟩

/-- The same reduction with steps that were carried out before it. -/
def after (r : Reduction) (done : List Step) : Reduction := ⟨done ++ r.steps, r.outcome⟩

theorem ofRun_halt (e : EvalError) (ss : List Step) :
    ofRun (.error ⟨e, ss⟩) = after ⟨[], .error e⟩ ss.reverse := by
  simp [ofRun, after]

@[simp] theorem after_nil (r : Reduction) : r.after [] = r := rfl

theorem after_after (r : Reduction) (ss us : List Step) :
    (r.after us).after ss = r.after (ss ++ us) := by
  simp [after]

end Reduction

end ExactCalc
