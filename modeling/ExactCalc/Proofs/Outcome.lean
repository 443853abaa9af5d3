import ExactCalc.Proofs.OperandSupply

/-!
# How a reduction ends

For any list of tokens, infix or not, the cause of a failure is read off the counts of
literals and operators, unless a division by zero comes first: an operand is missing, or
several are left over, or exactly one is and that is the value. No operator can be left
over, since the last ones are applied at the end of the list.
-/

set_option autoImplicit false

namespace ExactCalc

open Token

namespace Reducer

theorem Tracks.finish_ok {r : Reducer} {ts : List Token} {n : Machine} (h : r.Tracks ts)
    (hf : r.finish = .ok n) :
    n.operands.length + operators ts = literals ts ∧ (1 ≤ operators ts → n.operands ≠ []) := by
  rw [finish_eq_run] at hf
  obtain ⟨hlen, -, hne⟩ := Machine.run_ops_ok hf
  have hl := h.literals_eq
  have ho := h.operators_eq
  refine ⟨by omega, fun hpos => ?_⟩
  by_cases hp : r.pending = []
  · rw [hp] at hf ho
    cases hf
    exact h.nonempty (List.length_pos_iff.1 (by simp at ho; omega))
  · exact hne hp

theorem Tracks.finish_error {r : Reducer} {ts : List Token} {e : Halt} (h : r.Tracks ts)
    (hf : r.finish = .error e) :
    (e.error = .divisionByZero ∧ .op .div ∈ ts) ∨
      (e.error = .invalidExpression .missingOperand ∧ 1 ≤ operators ts ∧
        literals ts ≤ operators ts) := by
  rw [finish_eq_run] at hf
  rcases Machine.run_ops_error hf with ⟨he, hd⟩ | ⟨he, hne, hle⟩
  · rw [h.pending_eq] at hd
    exact .inl ⟨he, mem_of_mem_held hd⟩
  · have hl := h.literals_eq
    have ho := h.operators_eq
    have hpos := List.length_pos_iff.2 hne
    exact .inr ⟨he, by omega, by omega⟩

end Reducer

theorem reduce_of_ne_nil {ts : List Token} (hts : ts ≠ []) :
    reduce ts = .ofRun ((Reducer.pushAll {} ts).bind Reducer.finish) := by
  cases ts with
  | nil => exact absurd rfl hts
  | cons t ts => rfl

theorem Token.literals_pos {ts : List Token} (hts : ts ≠ []) (ho : operators ts = 0) :
    1 ≤ literals ts := by
  have hlen := List.length_pos_iff.2 hts
  rw [length_eq_literals_add_operators] at hlen
  omega

/-- The four ways in which a list that is not empty can end. -/
theorem reduce_cases {ts : List Token} (hts : ts ≠ []) :
    ((reduce ts).outcome = .error .divisionByZero ∧ .op .div ∈ ts) ∨
    ((reduce ts).outcome = .error (.invalidExpression .missingOperand) ∧ RunsShort ts) ∨
    ((∃ v, (reduce ts).outcome = .ok v) ∧ ¬ RunsShort ts ∧ literals ts = operators ts + 1) ∨
    ((reduce ts).outcome =
        .error (.invalidExpression (.finalState (literals ts - operators ts) 0)) ∧
      ¬ RunsShort ts ∧ operators ts + 2 ≤ literals ts) := by
  rw [reduce_of_ne_nil hts]
  cases hr : Reducer.pushAll {} ts with
  | error e =>
    rcases Reducer.pushAll_error hr with ⟨he, hd⟩ | ⟨he, hs⟩
    · exact .inl ⟨congrArg Except.error he, hd⟩
    · exact .inr (.inl ⟨congrArg Except.error he, hs⟩)
  | ok r =>
    have ht := Reducer.tracks_of_pushAll hr
    simp only [Except.bind]
    cases hf : r.finish with
    | error e =>
      rcases ht.finish_error hf with ⟨he, hd⟩ | ⟨he, hs⟩
      · exact .inl ⟨congrArg Except.error he, hd⟩
      · exact .inr (.inl ⟨congrArg Except.error he, .inl hs⟩)
    | ok n =>
      obtain ⟨hlen, hne⟩ := ht.finish_ok hf
      -- one operand is left in any case: an operator leaves one, else a literal is there
      have hpos : 1 ≤ n.operands.length := by
        by_cases ho : operators ts = 0
        · have := literals_pos hts ho
          omega
        · exact List.length_pos_iff.2 (hne (by omega))
      have hshort : ¬ RunsShort ts := by
        rintro (⟨-, hle⟩ | hs)
        · omega
        · exact Reducer.not_starves_of_pushAll hr hs
      obtain ⟨rs, ss⟩ := n
      rcases rs with _ | ⟨v, _ | ⟨w, rs⟩⟩
      · simp at hpos
      · exact .inr (.inr (.inl ⟨⟨v, rfl⟩, hshort, by simp at hlen; omega⟩))
      · simp only [List.length_cons] at hlen
        refine .inr (.inr (.inr ⟨?_, hshort, by omega⟩))
        rw [show literals ts - operators ts = (v :: w :: rs).length by simp; omega]
        rfl

/-- The failures of a reduction, for every list. An empty one has no token; no other is
refused so, and no refusal names a token or an operator. A division by zero needs a `/`.
Where none occurs, the counts decide: an operand is missing if the list runs short, a
value comes out if there is one literal more than operators, and else two or more operands
are left over. -/
theorem reduce_classified (ts : List Token) :
    ((reduce ts).outcome = .error (.invalidExpression .noToken) ↔ ts = []) ∧
      (∀ c p, (reduce ts).outcome ≠ .error (.invalidToken c p)) ∧
      (∀ text, (reduce ts).outcome ≠ .error (.invalidOperator text)) ∧
      ((reduce ts).outcome = .error .divisionByZero → .op .div ∈ ts) ∧
      (ts ≠ [] → (reduce ts).outcome ≠ .error .divisionByZero →
        ((reduce ts).outcome = .error (.invalidExpression .missingOperand) ↔ RunsShort ts) ∧
        (¬ RunsShort ts →
          ((∃ v, (reduce ts).outcome = .ok v) ↔ literals ts = operators ts + 1) ∧
          (literals ts ≠ operators ts + 1 →
            (reduce ts).outcome =
                .error (.invalidExpression (.finalState (literals ts - operators ts) 0)) ∧
              2 ≤ literals ts - operators ts))) := by
  by_cases hts : ts = []
  · subst hts
    simp [reduce]
  · rcases reduce_cases hts with ⟨h, hd⟩ | ⟨h, hs⟩ | ⟨⟨v, h⟩, hs, hl⟩ | ⟨h, hs, hl⟩
    · simp [h, hts, hd]
    · simp [h, hts, hs]
    · simp [h, hts, hs, hl]
    · have hne : literals ts ≠ operators ts + 1 := by omega
      simp [h, hts, hs, hne]
      omega

/-- Three operands and no operator are left although the `*` found its two. -/
theorem reduce_classified_leftover :
    (reduce [.num 1, .num 2, .op .mul, .num 3, .num 4]).outcome =
      .error (.invalidExpression (.finalState 3 0)) := by
  obtain ⟨-, -, -, -, h⟩ := reduce_classified [.num 1, .num 2, .op .mul, .num 3, .num 4]
  have hr : (reduce [.num 1, .num 2, .op .mul, .num 3, .num 4]).outcome =
      .error (.invalidExpression (.finalState 3 0)) := by decide +kernel
  obtain ⟨hm, hs⟩ := h (by simp) (by simp [hr])
  exact ((hs (hm.not.1 (by simp [hr]))).2 (by decide)).1

end ExactCalc
