import ExactCalc.Machine

/-!
# Reducing an expression to its value

Operators wait on a second stack until one arrives that does not bind more tightly;
those of equal precedence therefore group to the left. The machine below computes at
once, so the order of its steps is the order of the reductions.
-/

set_option autoImplicit false

namespace ExactCalc

/-- The machine and the operators still waiting for their right operand, latest first. -/
structure Reducer where
  machine : Machine := {}
  pending : List Op := []
  deriving DecidableEq, Repr

namespace Reducer

section Applying

/-! How an operation is carried out is left open here: one way keeps a record, another tells
a journal. -/

variable {F : Type → Type} [Monad F] (apply : Machine → Op → F Machine)

/-- Applies waiting operators while they bind at least as tightly as `p`. -/
def unwindBy (p : Nat) : List Op → Machine → F Reducer
  | [], m => pure ⟨m, []⟩
  | o :: os, m => if p ≤ o.precedence then apply m o >>= unwindBy p os else pure ⟨m, o :: os⟩

def pushBy (r : Reducer) : Token → F Reducer
  | .num v => pure { r with machine := r.machine.put v }
  | .op o => do
    let s ← unwindBy apply o.precedence r.pending r.machine
    return { s with pending := o :: s.pending }

def pushAllBy (r : Reducer) (ts : List Token) : F Reducer := ts.foldlM (pushBy apply) r

def finishBy (r : Reducer) : F Machine := do
  let s ← unwindBy apply 0 r.pending r.machine
  return s.machine

end Applying

def unwind (p : Nat) (os : List Op) (m : Machine) : Except Halt Reducer :=
  unwindBy Machine.apply p os m

def push (r : Reducer) (t : Token) : Except Halt Reducer := pushBy Machine.apply r t

def pushAll (r : Reducer) (ts : List Token) : Except Halt Reducer :=
  pushAllBy Machine.apply r ts

def finish (r : Reducer) : Except Halt Machine := finishBy Machine.apply r

theorem unwind_cons (p : Nat) (o : Op) (os : List Op) (m : Machine) :
    unwind p (o :: os) m =
      if p ≤ o.precedence then (m.apply o).bind (unwind p os) else .ok ⟨m, o :: os⟩ := rfl

theorem push_op_eq (r : Reducer) (o : Op) :
    r.push (.op o) =
      (unwind o.precedence r.pending r.machine).map
        fun s => { s with pending := o :: s.pending } := by
  rw [push, pushBy, unwind]
  cases unwindBy Machine.apply o.precedence r.pending r.machine <;> rfl

theorem pushAll_eq (r : Reducer) (ts : List Token) : r.pushAll ts = ts.foldlM push r := rfl

theorem finish_eq (r : Reducer) :
    r.finish = (unwind 0 r.pending r.machine).map machine := by
  rw [finish, finishBy, unwind]
  cases unwindBy Machine.apply 0 r.pending r.machine <;> rfl

end Reducer

/-- An empty list is refused before anything is done. -/
def reduce : List Token → Reduction
  | [] => ⟨[], .error (.invalidExpression .noToken)⟩
  | ts => .ofRun ((Reducer.pushAll {} ts).bind Reducer.finish)

end ExactCalc
