import ExactCalc.Evaluation
import ExactCalc.Expression
import ExactCalc.Proofs.Outcome
import ExactCalc.Proofs.Scanning

/-!
# Which lines are accepted

Nothing checks that literals and operators alternate. A line is accepted when its operands
suffice: one more literal than operators, and no application that comes too early. Every
infix line is such a line, but so are others, with an operator at either end or next to
another. A zero divisor is reported when it is met, also on a line that is malformed
further on.
-/

set_option autoImplicit false

namespace ExactCalc

namespace Token

/-- Every application finds two operands and one operand remains. -/
def Supplied (ts : List Token) : Prop :=
  literals ts = operators ts + 1 ∧ ¬ RunsShort ts

end Token

open Token

namespace IsInfix

theorem literals_eq {ts : List Token} (h : IsInfix ts) : literals ts = operators ts + 1 := by
  induction h with
  | lit v => rfl
  | join v o _ ih => simp [literals, operators, ih]

end IsInfix

/-- Short of a division by zero the operands alone tell a value from a malformation. -/
theorem reduce_trichotomy (ts : List Token) :
    (reduce ts).outcome = .error .divisionByZero ∨
      (Supplied ts ∧ ∃ v, (reduce ts).outcome = .ok v) ∨
      (¬ Supplied ts ∧ ∃ why, (reduce ts).outcome = .error (.invalidExpression why)) := by
  by_cases hts : ts = []
  · subst hts
    exact .inr (.inr ⟨fun h => by simp [Supplied, literals] at h, _, rfl⟩)
  · rcases reduce_cases hts with ⟨h, -⟩ | ⟨h, hs⟩ | ⟨h, hs, hl⟩ | ⟨h, -, hl⟩
    · exact .inl h
    · exact .inr (.inr ⟨fun hsup => hsup.2 hs, _, h⟩)
    · exact .inr (.inl ⟨⟨hl, hs⟩, h⟩)
    · refine .inr (.inr ⟨fun hsup => ?_, _, h⟩)
      have := hsup.1
      omega

theorem evaluate_of_scan {s : Settings} {line : String} {ts : List Token}
    (h : scan s.policy line = .ok ts) :
    evaluate s line = (reduce ts).outcome.map fun v => ⟨s, ts, (reduce ts).steps, v⟩ := by
  simp only [evaluate, attempt, h]

end ExactCalc
