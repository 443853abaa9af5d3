import ExactCalc.Postfix
import ExactCalc.Reduction
import Mathlib.Control.Monad.Basic

/-!
# Reductions follow the postfix order

A reducer computes while it reads, yet what it does is what the one-stack machine does
on the postfix order of the tokens: the same steps, the same end, and the same halt.
The machine in turn does what the evaluation of that order prescribes, so a reduction
is found by ordering everything first and computing afterwards. Nothing is assumed of
the list: its operators may take operands from far away, or find none.
-/

set_option autoImplicit false

namespace ExactCalc

namespace Reducer

theorem unwind_eq_run (p : Nat) (os : List Op) (m : Machine) :
    unwind p os m =
      (m.run ((os.takeWhile (p ≤ ·.precedence)).map .op)).map
        fun n => ⟨n, os.dropWhile (p ≤ ·.precedence)⟩ := by
  induction os generalizing m with
  | nil => rfl
  | cons o os ih =>
    by_cases hp : p ≤ o.precedence
    · simp only [unwind_cons, hp, if_true, List.takeWhile_cons, decide_true, List.map_cons,
        List.dropWhile_cons, Machine.run_cons, Machine.feed]
      cases m.apply o with
      | error h => rfl
      | ok n => exact ih n
    · simp only [unwind_cons, hp, if_false, List.takeWhile_cons, decide_false, List.dropWhile_cons]
      rfl

/-- An operator that is read lets those before it go that bind at least as tightly. -/
theorem push_op (r : Reducer) (o : Op) :
    r.push (.op o) =
      (r.machine.run ((r.pending.takeWhile (o.precedence ≤ ·.precedence)).map .op)).map
        fun n => ⟨n, o :: r.pending.dropWhile (o.precedence ≤ ·.precedence)⟩ := by
  rw [push_op_eq, unwind_eq_run]
  cases r.machine.run ((r.pending.takeWhile (o.precedence ≤ ·.precedence)).map .op) <;> rfl

theorem push_op_ok {r s : Reducer} {o : Op} (h : r.push (.op o) = .ok s) :
    ∃ n, r.machine.run ((r.pending.takeWhile (o.precedence ≤ ·.precedence)).map .op) = .ok n ∧
      s = ⟨n, o :: r.pending.dropWhile (o.precedence ≤ ·.precedence)⟩ := by
  rw [push_op] at h
  cases hr : r.machine.run ((r.pending.takeWhile (o.precedence ≤ ·.precedence)).map .op) with
  | error e => simp [hr, Except.map] at h
  | ok n =>
    simp only [hr, Except.map, Except.ok.injEq] at h
    exact ⟨n, rfl, h.symm⟩

theorem push_op_error {r : Reducer} {o : Op} {e : Halt} (h : r.push (.op o) = .error e) :
    r.machine.run ((r.pending.takeWhile (o.precedence ≤ ·.precedence)).map .op) = .error e := by
  rw [push_op] at h
  cases hr : r.machine.run ((r.pending.takeWhile (o.precedence ≤ ·.precedence)).map .op) with
  | error e' =>
    simp only [hr, Except.map, Except.error.injEq] at h
    rw [h]
  | ok n => simp [hr, Except.map] at h

theorem finish_eq_run (r : Reducer) : r.finish = r.machine.run (r.pending.map .op) := by
  have h : r.pending.takeWhile (fun o => decide (0 ≤ o.precedence)) = r.pending := by
    induction r.pending with
    | nil => rfl
    | cons o os ih => exact congrArg (o :: ·) ih
  rw [finish_eq, unwind_eq_run, h]
  cases r.machine.run (r.pending.map .op) <;> rfl

/-- Whatever tokens follow, the operators held back so far come out in postfix order. -/
theorem pushAll_finish (ts : List Token) (m : Machine) (os : List Op) :
    ((pushAll ⟨m, os⟩ ts).bind finish) = m.run (Token.postfixFrom os ts) := by
  induction ts generalizing m os with
  | nil => exact finish_eq_run ⟨m, os⟩
  | cons t ts ih =>
    cases t with
    | num v => exact ih (m.put v) os
    | op o =>
      rw [Token.postfixFrom_cons_op, Machine.run_append]
      change (((push ⟨m, os⟩ (.op o)).bind fun s => s.pushAll ts).bind finish) = _
      rw [push_op]
      cases m.run ((os.takeWhile (o.precedence ≤ ·.precedence)).map .op) with
      | error h => rfl
      | ok n => exact ih n _

end Reducer

theorem reduce_eq_run (ts : List Token) (hts : ts ≠ []) :
    reduce ts = .ofRun (Machine.run {} (Token.postfixOrder ts)) := by
  cases ts with
  | nil => exact absurd rfl hts
  | cons t ts => exact congrArg Reduction.ofRun (Reducer.pushAll_finish (t :: ts) {} [])

namespace Reduction

/-- The machine's record is the evaluation's, put after the steps it started with. -/
theorem ofRun_run (ts : List Token) (m : Machine) :
    ofRun (m.run ts) = (Token.evalFrom m.operands ts).after m.steps.reverse := by
  induction ts generalizing m with
  | nil =>
    obtain ⟨rs, ss⟩ := m
    change ofRun (.ok ⟨rs, ss⟩) = _
    rcases rs with _ | ⟨v, _ | ⟨w, rs⟩⟩ <;>
      simp [ofRun, Machine.value, Token.evalFrom, after]
  | cons t ts ih =>
    rw [Machine.run_cons]
    cases t with
    | num v => exact ih (m.put v)
    | op o =>
      obtain ⟨rs, ss⟩ := m
      rcases rs with _ | ⟨b, _ | ⟨a, rs⟩⟩
      · exact ofRun_halt _ ss
      · exact ofRun_halt _ ss
      · cases hv : o.value? a b with
        | none =>
          have he : o.eval a b = .error .divisionByZero :=
            (o.eval_eq_error_iff a b).2 hv
          simp only [Machine.feed, Machine.apply, he, Token.evalFrom, hv]
          exact ofRun_halt .divisionByZero ss
        | some r =>
          have he : o.eval a b = .ok r := (o.eval_eq_ok_iff a b r).2 hv
          simp only [Machine.feed, Machine.apply, he, Token.evalFrom, hv]
          rw [after_after, ← List.reverse_cons]
          exact ih ⟨r :: rs, ⟨o, a, b, r⟩ :: ss⟩

end Reduction

/-- Ordering first and computing afterwards gives the same steps, in the same order, and
the same value or the same failure as computing while reading. -/
theorem reduce_eq_evalPostfix (ts : List Token) (hts : ts ≠ []) :
    reduce ts = Token.evalPostfix (Token.postfixOrder ts) := by
  rw [reduce_eq_run ts hts, Reduction.ofRun_run]
  exact Reduction.after_nil _

/-- No infix list: the `+` waits below the `*` and reaches for the first literal, and
the `-` is left with one operand. -/
theorem reduce_eq_evalPostfix_literals_first :
    [Token.num 1, .num 2, .num 3, .op .add, .op .mul, .op .sub] ≠ [] ∧
      reduce [.num 1, .num 2, .num 3, .op .add, .op .mul, .op .sub] =
        Token.evalPostfix [.num 1, .num 2, .num 3, .op .mul, .op .add, .op .sub] ∧
      (Token.evalPostfix [.num 1, .num 2, .num 3, .op .mul, .op .add, .op .sub]).steps =
        [⟨.mul, 2, 3, 6⟩, ⟨.add, 1, 6, 7⟩] ∧
      (Token.evalPostfix [.num 1, .num 2, .num 3, .op .mul, .op .add, .op .sub]).outcome =
        .error (.invalidExpression .missingOperand) :=
  ⟨by decide, reduce_eq_evalPostfix _ (by decide), by decide +kernel, by decide +kernel⟩

end ExactCalc
