import ExactCalc.Proofs.Halting
import ExactCalc.Proofs.PostfixOrder
import Mathlib.Data.List.DropRight
import Mathlib.Data.List.Induction
import Mathlib.Data.List.TakeWhile

/-!
# Operands in supply

How a reduction ends is decided by counting. The operators that wait after a list is read
depend on its operators alone, so it is known how many have been applied by then; each
application uses up one operand. Comparing that number with the literals read so far tells
whether an operand was missing. The counts do not see a division by zero, which depends on
values and may come first.
-/

set_option autoImplicit false

namespace ExactCalc

namespace Token

def literals : List Token → Nat
  | [] => 0
  | .num _ :: ts => literals ts + 1
  | .op _ :: ts => literals ts

def operators : List Token → Nat
  | [] => 0
  | .num _ :: ts => operators ts
  | .op _ :: ts => operators ts + 1

theorem literals_append (ts us : List Token) : literals (ts ++ us) = literals ts + literals us := by
  induction ts with
  | nil => simp [literals]
  | cons t ts ih => cases t <;> simp [literals, ih, Nat.add_right_comm]

theorem operators_append (ts us : List Token) :
    operators (ts ++ us) = operators ts + operators us := by
  induction ts with
  | nil => simp [operators]
  | cons t ts ih => cases t <;> simp [operators, ih, Nat.add_right_comm]

theorem length_eq_literals_add_operators (ts : List Token) :
    ts.length = literals ts + operators ts := by
  induction ts with
  | nil => rfl
  | cons t ts ih => cases t <;> simp [literals, operators, ih] <;> omega

/-- The operators that wait once a token has come after those in `held`. -/
def hold (held : List Op) : Token → List Op
  | .num _ => held
  | .op o => o :: held.dropWhile (o.precedence ≤ ·.precedence)

/-- The operators that wait after a list, the latest first. -/
def held (ts : List Token) : List Op := ts.foldl hold []

/-- The latest of the operators that bind loosely. -/
def lastLoose (ts : List Token) : Option Op :=
  ts.foldl (fun a t => match t with
    | .num _ => a
    | .op o => if o.precedence = 1 then some o else a) none

theorem held_snoc (ts : List Token) (t : Token) : held (ts ++ [t]) = hold (held ts) t := by
  simp [held]

theorem lastLoose_snoc_num (ts : List Token) (v : Rat) :
    lastLoose (ts ++ [.num v]) = lastLoose ts := by
  simp [lastLoose]

theorem lastLoose_snoc_op (ts : List Token) (o : Op) :
    lastLoose (ts ++ [.op o]) = if o.precedence = 1 then some o else lastLoose ts := by
  simp [lastLoose]

theorem mem_of_mem_held {ts : List Token} {o : Op} (h : o ∈ held ts) : .op o ∈ ts := by
  induction ts using List.reverseRecOn with
  | nil => simp [held] at h
  | append_singleton ts t ih =>
    rw [held_snoc] at h
    cases t with
    | num v => exact List.mem_append_left _ (ih h)
    | op p =>
      rcases List.mem_cons.1 h with rfl | hm
      · simp
      · exact List.mem_append_left _ (ih (List.dropWhile_subset _ hm))

/-- An operator that binds loosely lets none of those before it wait. -/
theorem dropWhile_loose {o : Op} (ho : o.precedence = 1) (os : List Op) :
    os.dropWhile (o.precedence ≤ ·.precedence) = [] := by
  rw [List.dropWhile_eq_nil_iff]
  intro p _
  rcases p.precedence_eq with hp | hp <;> simp [ho, hp]

/-- Under those that bind tightly only the latest loose operator waits. -/
theorem dropWhile_held (ts : List Token) :
    (held ts).dropWhile (2 ≤ ·.precedence) = (lastLoose ts).toList := by
  induction ts using List.reverseRecOn with
  | nil => rfl
  | append_singleton ts t ih =>
    rw [held_snoc]
    cases t with
    | num v => rw [hold, ih, lastLoose_snoc_num]
    | op o =>
      rw [hold, lastLoose_snoc_op]
      rcases o.precedence_eq with ho | ho
      · rw [dropWhile_loose ho]
        simp [ho]
      · rw [ho, List.dropWhile_cons_of_pos (by simp [ho]), List.dropWhile_idempotent, ih]
        simp

theorem isSome_lastLoose (ts : List Token) :
    (lastLoose ts).isSome ↔ .op .add ∈ ts ∨ .op .sub ∈ ts := by
  induction ts using List.reverseRecOn with
  | nil => simp [lastLoose]
  | append_singleton ts t ih =>
    cases t with
    | num v => simp [lastLoose_snoc_num, ih]
    | op o => cases o <;> simp [lastLoose_snoc_op, Op.precedence, ih]

/-- How many operators wait after `o`, read after `before`: a tight one above a loose
one that came earlier, else `o` alone. -/
def waitingAfter (before : List Token) (o : Op) : Nat :=
  if (o = .mul ∨ o = .div) ∧ (.op .add ∈ before ∨ .op .sub ∈ before) then 2 else 1

/-- How many operators have been applied once `o` has been read after `before`. -/
def appliedAfter (before : List Token) (o : Op) : Nat :=
  operators (before ++ [.op o]) - waitingAfter before o

/-- Operators have been applied by the time `o` waits, and the literals in front of it
are too few for that. -/
def Starves (before : List Token) (o : Op) : Prop :=
  1 ≤ appliedAfter before o ∧ literals before ≤ appliedAfter before o

/-- Some operand is missing: at the end of the list, or at one of its operators. -/
def RunsShort (ts : List Token) : Prop :=
  (1 ≤ operators ts ∧ literals ts ≤ operators ts) ∨
    ∃ before o after, ts = before ++ .op o :: after ∧ Starves before o

theorem length_held_snoc_op (ts : List Token) (o : Op) :
    (held (ts ++ [.op o])).length = waitingAfter ts o := by
  simp only [held_snoc, hold, List.length_cons, waitingAfter, ← isSome_lastLoose]
  rcases o.precedence_eq with ho | ho
  · have hn : ¬ (o = .mul ∨ o = .div) := by
      rintro (rfl | rfl) <;> simp [Op.precedence] at ho
    rw [dropWhile_loose ho]
    simp [hn]
  · have hp : o = .mul ∨ o = .div := by
      cases o <;> simp [Op.precedence] at ho ⊢
    rw [ho, dropWhile_held]
    cases lastLoose ts <;> simp [hp]

end Token

namespace Reducer

open Token

/-- What a reducer holds after a list it has read without a halt. -/
structure Tracks (r : Reducer) (ts : List Token) : Prop where
  pending_eq : r.pending = held ts
  literals_eq : r.machine.operands.length + r.machine.steps.length = literals ts
  operators_eq : r.pending.length + r.machine.steps.length = operators ts
  nonempty : r.machine.steps ≠ [] → r.machine.operands ≠ []

theorem length_unwound (p : Nat) (os : List Op) :
    (os.takeWhile (p ≤ ·.precedence)).length + (os.dropWhile (p ≤ ·.precedence)).length =
      os.length := by
  rw [← List.length_append, List.takeWhile_append_dropWhile]

theorem Tracks.push {r s : Reducer} {ts : List Token} (h : r.Tracks ts) {t : Token}
    (hp : r.push t = .ok s) : s.Tracks (ts ++ [t]) := by
  have hl := literals_append ts [t]
  have ho := operators_append ts [t]
  cases t with
  | num v =>
    cases hp
    have hops := h.literals_eq
    have hpen := h.operators_eq
    simp only [literals, operators] at hl ho
    refine ⟨?_, ?_, ?_, by simp [Machine.put]⟩
    · rw [held_snoc]
      exact h.pending_eq
    · simp only [Machine.put, List.length_cons]
      omega
    · simp only [Machine.put]
      omega
  | op o =>
    obtain ⟨n, hr, rfl⟩ := push_op_ok hp
    obtain ⟨hlen, hsteps, hne⟩ := Machine.run_ops_ok hr
    have hsplit := length_unwound o.precedence r.pending
    have hops := h.literals_eq
    have hpen := h.operators_eq
    simp only [literals, operators] at hl ho
    refine ⟨?_, ?_, ?_, ?_⟩
    · rw [held_snoc, ← h.pending_eq]
      rfl
    · simp only
      omega
    · simp only [List.length_cons]
      omega
    · intro hs
      -- when nothing comes off, the operands are those from before
      by_cases hk : r.pending.takeWhile (o.precedence ≤ ·.precedence) = []
      · rw [hk] at hr
        cases hr
        exact h.nonempty hs
      · exact hne hk

theorem tracks_of_pushAll {ts : List Token} {r : Reducer} (h : pushAll {} ts = .ok r) :
    r.Tracks ts := by
  induction ts using List.reverseRecOn generalizing r with
  | nil =>
    cases h
    exact ⟨rfl, rfl, rfl, by simp⟩
  | append_singleton ts t ih =>
    obtain ⟨s, hs⟩ := exists_of_foldlM_append push h
    rw [pushAll_eq, foldlM_append_cons push hs] at h
    cases hp : s.push t with
    | error e => simp [hp, Except.bind] at h
    | ok u =>
      simp only [hp, Except.bind, List.foldlM_nil] at h
      cases h
      exact (ih hs).push hp

/-- The operators that have been applied are the steps. -/
theorem Tracks.steps_eq_appliedAfter {r : Reducer} {ts : List Token} {o : Op}
    (h : r.Tracks (ts ++ [.op o])) : r.machine.steps.length = appliedAfter ts o := by
  have hp := h.operators_eq
  rw [h.pending_eq, length_held_snoc_op] at hp
  rw [appliedAfter]
  omega

theorem Tracks.not_starves {r : Reducer} {ts : List Token} {o : Op}
    (h : r.Tracks (ts ++ [.op o])) : ¬ Starves ts o := by
  rintro ⟨hpos, hle⟩
  rw [← h.steps_eq_appliedAfter] at hpos hle
  have hl := h.literals_eq
  rw [literals_append, literals, literals] at hl
  have hne : 1 ≤ r.machine.operands.length :=
    List.length_pos_iff.2 (h.nonempty (List.length_pos_iff.1 hpos))
  omega

theorem not_starves_of_pushAll {ts : List Token} {r : Reducer} (h : pushAll {} ts = .ok r) :
    ¬ ∃ before o after, ts = before ++ .op o :: after ∧ Starves before o := by
  rintro ⟨before, o, after, rfl, hs⟩
  rw [← List.concat_append] at h
  obtain ⟨s, hs'⟩ := exists_of_foldlM_append push h
  rw [List.concat_eq_append] at hs'
  exact (tracks_of_pushAll hs').not_starves hs

/-- An operator that halts the reducer divides by zero or was read too early. -/
theorem Tracks.push_error {r : Reducer} {ts : List Token} (h : r.Tracks ts) {t : Token}
    {e : Halt} (hp : r.push t = .error e) :
    (e.error = .divisionByZero ∧ .op .div ∈ ts) ∨
      (e.error = .invalidExpression .missingOperand ∧ ∃ o, t = .op o ∧ Starves ts o) := by
  cases t with
  | num v => cases hp
  | op o =>
    rcases Machine.run_ops_error (push_op_error hp) with ⟨he, hd⟩ | ⟨he, hk, hle⟩
    · have hm := List.takeWhile_subset _ hd
      rw [h.pending_eq] at hm
      exact .inl ⟨he, mem_of_mem_held hm⟩
    · refine .inr ⟨he, o, rfl, ?_⟩
      -- as many operators are applied as come off now, after the steps so far
      have hsplit := length_unwound o.precedence r.pending
      have hw := length_held_snoc_op ts o
      rw [held_snoc, hold, List.length_cons, ← h.pending_eq] at hw
      have hpos := List.length_pos_iff.2 hk
      have hl := h.literals_eq
      have hp := h.operators_eq
      have ho := operators_append ts [.op o]
      simp only [operators] at ho
      constructor <;> rw [appliedAfter] <;> omega

theorem pushAll_error {ts : List Token} {e : Halt} (h : pushAll {} ts = .error e) :
    (e.error = .divisionByZero ∧ .op .div ∈ ts) ∨
      (e.error = .invalidExpression .missingOperand ∧ RunsShort ts) := by
  obtain ⟨us, t, vs, r, rfl, hr, ht⟩ := (foldlM_eq_error_iff push _ _ _).1 h
  rcases (tracks_of_pushAll hr).push_error ht with ⟨he, hd⟩ | ⟨he, o, rfl, hs⟩
  · exact .inl ⟨he, List.mem_append_left _ hd⟩
  · exact .inr ⟨he, .inr ⟨us, o, vs, rfl, hs⟩⟩

end Reducer

end ExactCalc
