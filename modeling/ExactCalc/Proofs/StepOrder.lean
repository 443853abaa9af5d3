import ExactCalc.Proofs.OperandSupply

/-!
# The steps a reduction leaves behind

Every operator that is applied leaves one step, so the operators of the steps, in order, are
those of a beginning of the postfix order. It is all of it if the reduction gets to the end of
the list. If it does not, the operator right behind that beginning is the one that fails, and
it leaves no step.
-/

set_option autoImplicit false

namespace ExactCalc

namespace Token

open List

/-- The operators of a list, in order. -/
def ops : List Token → List Op
  | [] => []
  | .num _ :: ts => ops ts
  | .op o :: ts => o :: ops ts

theorem ops_append (ts us : List Token) : ops (ts ++ us) = ops ts ++ ops us := by
  induction ts with
  | nil => rfl
  | cons t ts ih => cases t <;> simp [ops, ih]

theorem ops_map_op (os : List Op) : ops (os.map .op) = os := by
  induction os with
  | nil => rfl
  | cons o os ih => rw [List.map_cons, ops, ih]

theorem perm_ops_postfixFrom (held : List Op) (ts : List Token) :
    ops (postfixFrom held ts) ~ held ++ ops ts := by
  induction ts generalizing held with
  | nil => rw [postfixFrom, ops_map_op, ops, List.append_nil]
  | cons t ts ih =>
    cases t with
    | num v => exact ih held
    | op o =>
      rw [postfixFrom_cons_op, ops_append, ops_map_op, ops]
      calc held.takeWhile (o.precedence ≤ ·.precedence) ++
            ops (postfixFrom (o :: held.dropWhile (o.precedence ≤ ·.precedence)) ts)
        _ ~ held.takeWhile (o.precedence ≤ ·.precedence) ++
            (o :: (held.dropWhile (o.precedence ≤ ·.precedence) ++ ops ts)) :=
          (ih _).append_left _
        _ ~ o :: (held.takeWhile (o.precedence ≤ ·.precedence) ++
            (held.dropWhile (o.precedence ≤ ·.precedence) ++ ops ts)) := perm_middle
        _ = o :: (held ++ ops ts) := by
          rw [← List.append_assoc, List.takeWhile_append_dropWhile]
        _ ~ held ++ o :: ops ts := perm_middle.symm

/-- The postfix order has the operators of the list, in another order. -/
theorem perm_ops_postfixOrder (ts : List Token) : ops (postfixOrder ts) ~ ops ts :=
  perm_ops_postfixFrom [] ts

end Token

open Token

namespace Machine

/-- A run that succeeds leaves one step for every operator. -/
theorem run_ok_steps {m n : Machine} {ts : List Token} (h : m.run ts = .ok n) :
    n.steps.reverse.map Step.op = m.steps.reverse.map Step.op ++ ops ts := by
  induction ts generalizing m with
  | nil =>
    cases h
    simp [ops]
  | cons t ts ih =>
    obtain ⟨m', hm, hrest⟩ := exists_of_run_cons h
    rw [ih hrest]
    cases t with
    | num v =>
      cases hm
      rfl
    | op o =>
      obtain ⟨a, b, rest, r, -, -, rfl⟩ := (apply_eq_ok_iff m m' o).1 hm
      simp [ops]

end Machine

end ExactCalc
