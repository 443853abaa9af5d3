import ExactCalc.Reduction
import ExactCalc.Scan

/-!
# Where a run stops

Scanning, reducing and running the machine all go through a list from the left and stop
at the first item they cannot take. What they did before it is a run that succeeded, so a
failure is explained by one item and the state in front of it. For the machine that item
is an operator: it lacks an operand, or it divides by zero.
-/

set_option autoImplicit false

namespace ExactCalc

section FirstFailure

variable {α σ ε : Type} (f : σ → α → Except ε σ)

theorem foldlM_append_cons {s t : σ} {xs : List α} (h : xs.foldlM f s = .ok t) (x : α)
    (ys : List α) : (xs ++ x :: ys).foldlM f s = (f t x).bind fun u => ys.foldlM f u := by
  rw [List.foldlM_append, h]
  rfl

theorem foldlM_eq_error_iff (s : σ) (xs : List α) (e : ε) :
    xs.foldlM f s = .error e ↔
      ∃ ys x zs t, xs = ys ++ x :: zs ∧ ys.foldlM f s = .ok t ∧ f t x = .error e := by
  constructor
  · intro h
    induction xs generalizing s with
    | nil => cases h
    | cons x xs ih =>
      cases hx : f s x with
      | error e' =>
        simp only [List.foldlM_cons, hx, bind, Except.bind, Except.error.injEq] at h
        exact ⟨[], x, xs, s, rfl, rfl, by rw [hx, h]⟩
      | ok t =>
        simp only [List.foldlM_cons, hx, bind, Except.bind] at h
        obtain ⟨ys, y, zs, u, rfl, hy, hu⟩ := ih t h
        exact ⟨x :: ys, y, zs, u, rfl, by simp [List.foldlM_cons, hx, bind, Except.bind, hy], hu⟩
  · rintro ⟨ys, x, zs, t, rfl, hy, hx⟩
    rw [foldlM_append_cons f hy, hx]
    rfl

/-- Whatever was read without a failure, every beginning of it was. -/
theorem exists_of_foldlM_append {s u : σ} {xs ys : List α}
    (h : (xs ++ ys).foldlM f s = .ok u) : ∃ t, xs.foldlM f s = .ok t := by
  rw [List.foldlM_append] at h
  cases hx : xs.foldlM f s with
  | error e => simp [hx, bind, Except.bind] at h
  | ok t => exact ⟨t, rfl⟩

end FirstFailure

namespace Machine

theorem apply_eq_ok_iff (m n : Machine) (o : Op) :
    m.apply o = .ok n ↔ ∃ a b rest r, m.operands = b :: a :: rest ∧ o.eval a b = .ok r ∧
      n = ⟨r :: rest, ⟨o, a, b, r⟩ :: m.steps⟩ := by
  obtain ⟨rs, ss⟩ := m
  rcases rs with _ | ⟨b, _ | ⟨a, rest⟩⟩
  · simp [apply]
  · simp [apply]
  · constructor
    · intro h
      cases he : o.eval a b with
      | error e => simp [apply, he] at h
      | ok r =>
        simp only [apply, he, Except.ok.injEq] at h
        exact ⟨a, b, rest, r, rfl, he, h.symm⟩
    · rintro ⟨a', b', rest', r, hr, he, rfl⟩
      cases hr
      simp [apply, he]

theorem apply_of_length_lt {m : Machine} (h : m.operands.length < 2) (o : Op) :
    m.apply o = .error ⟨.invalidExpression .missingOperand, m.steps⟩ := by
  obtain ⟨rs, ss⟩ := m
  rcases rs with _ | ⟨b, _ | ⟨a, rest⟩⟩
  · rfl
  · rfl
  · simp only [List.length_cons] at h
    omega

theorem apply_eq_error_iff (m : Machine) (o : Op) (h : Halt) :
    m.apply o = .error h ↔
      (m.operands.length < 2 ∧ h = ⟨.invalidExpression .missingOperand, m.steps⟩) ∨
        (o = .div ∧ (∃ a rest, m.operands = 0 :: a :: rest) ∧ h = ⟨.divisionByZero, m.steps⟩) := by
  constructor
  · intro ha
    by_cases hl : m.operands.length < 2
    · rw [apply_of_length_lt hl] at ha
      exact .inl ⟨hl, (Except.error.inj ha).symm⟩
    · obtain ⟨rs, ss⟩ := m
      rcases rs with _ | ⟨b, _ | ⟨a, rest⟩⟩
      · simp at hl
      · simp at hl
      · cases he : o.eval a b with
        | error e =>
          obtain ⟨rfl, rfl, rfl⟩ := (Op.eval_error_iff o a b e).1 he
          exact .inr ⟨rfl, ⟨a, rest, rfl⟩, (Except.error.inj ha).symm⟩
        | ok r => simp [apply, he] at ha
  · rintro (⟨hl, rfl⟩ | ⟨rfl, ⟨a, rest, hr⟩, rfl⟩)
    · exact apply_of_length_lt hl o
    · simp [apply, hr, Op.eval]

/-- A run that succeeds takes its first token and goes on from there. -/
theorem exists_of_run_cons {m n : Machine} {t : Token} {ts : List Token}
    (h : m.run (t :: ts) = .ok n) : ∃ m', m.feed t = .ok m' ∧ m'.run ts = .ok n := by
  rw [run_cons] at h
  cases ht : m.feed t with
  | error e => simp [ht, Except.bind] at h
  | ok m' =>
    rw [ht] at h
    exact ⟨m', rfl, h⟩

/-- Operators alone: each takes one operand away and adds one step. -/
theorem run_ops_ok {os : List Op} {m n : Machine} (h : m.run (os.map .op) = .ok n) :
    n.operands.length + os.length = m.operands.length ∧
      n.steps.length = m.steps.length + os.length ∧ (os ≠ [] → n.operands ≠ []) := by
  induction os generalizing m with
  | nil =>
    cases h
    simp
  | cons o os ih =>
    obtain ⟨m', hm, hrest⟩ := exists_of_run_cons h
    obtain ⟨a, b, rest, r, hr, -, rfl⟩ := (apply_eq_ok_iff m m' o).1 hm
    obtain ⟨hlen, hsteps, hne⟩ := ih hrest
    simp only [List.length_cons] at hlen hsteps
    refine ⟨by simp [hr]; omega, by simp; omega, fun _ hn => ?_⟩
    cases os with
    | nil => simp [hn] at hlen
    | cons p ps => exact hne (by simp) hn

theorem run_ops_error {os : List Op} {m : Machine} {h : Halt}
    (hm : m.run (os.map .op) = .error h) :
    (h.error = .divisionByZero ∧ .div ∈ os) ∨
      (h.error = .invalidExpression .missingOperand ∧ os ≠ [] ∧
        m.operands.length ≤ os.length) := by
  obtain ⟨us, t, vs, n, hos, hn, ht⟩ := (foldlM_eq_error_iff feed m _ _).1 hm
  obtain ⟨ps, qs, rfl, rfl, hq⟩ := List.map_eq_append_iff.1 hos
  obtain ⟨o, qs, rfl, rfl, rfl⟩ := List.map_eq_cons_iff.1 hq
  have hlen := (run_ops_ok hn).1
  rcases (apply_eq_error_iff n o h).1 ht with ⟨hl, rfl⟩ | ⟨rfl, -, rfl⟩
  · refine .inr ⟨rfl, by simp, ?_⟩
    simp only [List.length_append, List.length_cons]
    omega
  · exact .inl ⟨rfl, by simp⟩

end Machine

end ExactCalc
