import ExactCalc.Proofs.Acceptance
import ExactCalc.Proofs.TokenText
import Mathlib.Algebra.Order.Ring.Unbundled.Rat
import Mathlib.Algebra.Ring.Rat
import Mathlib.Data.List.Chain

/-!
# The exact text can be entered again

The exact text of a value is an expression: a numerator, and behind a `/` the denominator.
Neither is parted by a space, and none is needed where no two literals are neighbours. The
value of this expression is the value that was written, after the one division or none. The
sign of a negative value is not part of a literal, though. It is read as an operator that
waits until the end and then finds no left operand.
-/

set_option autoImplicit false

namespace ExactCalc

open Token

/-- Of two neighbours at least one is an operator. -/
def Token.Apart (t u : Token) : Prop := (∃ o, t = .op o) ∨ ∃ o, u = .op o

namespace Scan

/-- Tokens without spaces between them are read as they are if literals are apart. -/
theorem closed_readAll_texts {s : Scan} {ts : List Token} (hts : ∀ t ∈ ts, t.Typable)
    (hapart : ts.IsChain Apart) (hs : s.run = none ∨ ∀ t ∈ ts.head?, ∃ o, t = .op o) :
    (s.readAll (ts.flatMap fun t => t.text.toList)).closed = ts.reverse ++ s.closed := by
  induction ts generalizing s with
  | nil => rfl
  | cons t ts ih =>
    obtain ⟨ht, hrest⟩ := List.forall_mem_cons.1 hts
    obtain ⟨hnext, hchain⟩ := List.isChain_cons.1 hapart
    rw [List.flatMap_cons, readAll_append, List.reverse_cons, List.append_assoc,
      List.singleton_append]
    cases t with
    | op o =>
      have hread : s.readAll (Token.op o).text.toList =
          ⟨s.position + 1, .op o :: s.closed, none⟩ := by
        have htext : (Token.op o).text.toList = [o.symbol] := by simp [Token.text, Op.text]
        rw [htext, readAll_cons, read_symbol]
        rfl
      rw [hread, ih hrest hchain (.inl rfl)]
      rfl
    | num r =>
      have hrun : s.run = none := by
        rcases hs with h | h
        · exact h
        · obtain ⟨o, ho⟩ := h _ rfl
          cases ho
      have hop : ∀ u ∈ ts.head?, ∃ o, u = .op o := by
        intro u hu
        rcases hnext u hu with ⟨o, ho⟩ | ho
        · cases ho
        · exact ho
      rw [ih hrest hchain (.inr hop), closed_readAll_text hrun ht, closed_of_run_none hrun]

end Scan

theorem scan_texts (p : Policy) {ts : List Token} (hts : ∀ t ∈ ts, t.Typable)
    (hapart : ts.IsChain Apart) {line : String}
    (hline : line.toList = ts.flatMap fun t => t.text.toList) : scan p line = .ok ts := by
  have haccepts : ∀ c ∈ line.toList, p.accepts c = true := by
    intro c hc
    rw [hline] at hc
    obtain ⟨t, ht, hc⟩ := List.mem_flatMap.1 hc
    exact p.accepts_text (hts t ht) c hc
  rw [scan_of_accepts haccepts, hline, Scan.result,
    Scan.closed_readAll_texts hts hapart (.inl rfl)]
  simp [Scan.closed]

namespace Numeral

theorem toList_ofInt (z : Int) :
    (ofInt z).toList = (if z < 0 then ['-'] else []) ++ (ofNat z.natAbs).toList := by
  cases z with
  | ofNat n => rfl
  | negSucc n => simp [ofInt]

/-- The exact text of a value as an expression. -/
def tokens (r : Rat) : List Token :=
  (if r < 0 then [.op .sub] else []) ++
    .num r.num.natAbs :: if r.den = 1 then [] else [.op .div, .num r.den]

theorem typable_tokens (r : Rat) : ∀ t ∈ tokens r, t.Typable := by
  have hsign : ∀ t ∈ (if r < 0 then [Token.op .sub] else []), t.Typable := by
    split <;> simp [Typable]
  have hbar : ∀ t ∈ (if r.den = 1 then [] else [Token.op .div, .num r.den]), t.Typable := by
    split <;> simp [Typable]
  exact List.forall_mem_append.2 ⟨hsign, List.forall_mem_cons.2 ⟨⟨_, rfl⟩, hbar⟩⟩

theorem apart_tokens (r : Rat) : (tokens r).IsChain Apart := by
  unfold tokens
  split <;> split <;> simp [Apart]

/-- The sign and the bar of a rational are written as the operators are. -/
theorem toList_ofRat (r : Rat) :
    (ofRat r).toList = (tokens r).flatMap fun t => t.text.toList := by
  have hsign : (if r < 0 then [Token.op .sub] else []).flatMap (fun t => t.text.toList) =
      if r.num < 0 then ['-'] else [] := by
    by_cases hneg : r < 0
    · rw [if_pos hneg, if_pos (Rat.num_neg.2 hneg)]
      rfl
    · rw [if_neg hneg, if_neg (Rat.num_neg.not.2 hneg)]
      rfl
  have hbar : (if r.den = 1 then [] else [Token.op .div, .num r.den]).flatMap
      (fun t => t.text.toList) = if r.den = 1 then [] else '/' :: (ofNat r.den).toList := by
    split
    · rfl
    · rw [List.flatMap_cons, List.flatMap_singleton, text_natCast]
      rfl
  rw [tokens, List.flatMap_append, List.flatMap_cons, hsign, hbar, text_natCast, ofRat]
  split
  · rw [toList_ofInt, List.append_nil]
  · rw [String.toList_append, String.toList_append, toList_ofInt, List.append_assoc,
      List.append_assoc]
    rfl

end Numeral

theorem scan_ofRat (p : Policy) (r : Rat) : scan p (Numeral.ofRat r) = .ok (Numeral.tokens r) :=
  scan_texts p (Numeral.typable_tokens r) (Numeral.apart_tokens r) (Numeral.toList_ofRat r)

theorem Machine.apply_div {a b : Rat} (hb : b ≠ 0) (rest : List Rat) (ss : List Step) :
    Machine.apply ⟨b :: a :: rest, ss⟩ .div =
      .ok ⟨a / b :: rest, ⟨.div, a, b, a / b⟩ :: ss⟩ := by
  simp [Machine.apply, Op.eval, hb]

theorem reduce_quotient {a b : Rat} (hb : b ≠ 0) :
    reduce [.num a, .op .div, .num b] = ⟨[⟨.div, a, b, a / b⟩], .ok (a / b)⟩ := by
  rw [reduce_eq_run _ (by simp)]
  show Reduction.ofRun ((Machine.apply ⟨[b, a], []⟩ .div).bind fun n => n.run []) = _
  rw [Machine.apply_div hb]
  rfl

/-- A sign in front of a quotient is applied after the division, to one operand. -/
theorem reduce_sign_quotient {a b : Rat} (hb : b ≠ 0) :
    (reduce [.op .sub, .num a, .op .div, .num b]).outcome =
      .error (.invalidExpression .missingOperand) := by
  rw [reduce_eq_run _ (by simp)]
  show (Reduction.ofRun
    ((Machine.apply ⟨[b, a], []⟩ .div).bind fun n => n.run [.op .sub])).outcome = _
  rw [Machine.apply_div hb]
  rfl

namespace Numeral

theorem natAbs_num_of_nonneg {r : Rat} (h : 0 ≤ r) : ((r.num.natAbs : Nat) : Rat) = r.num := by
  rw [← Int.cast_natCast, Int.natAbs_of_nonneg (Rat.num_nonneg.2 h)]

theorem reduce_tokens_of_nonneg {r : Rat} (h : 0 ≤ r) :
    reduce (tokens r) = ⟨if r.den = 1 then [] else [⟨.div, r.num, r.den, r⟩], .ok r⟩ := by
  have hden : (r.den : Rat) ≠ 0 := by exact_mod_cast r.den_ne_zero
  rw [tokens, if_neg (not_lt.2 h), List.nil_append, natAbs_num_of_nonneg h]
  split
  · rename_i hone
    rw [Rat.coe_int_num_of_den_eq_one hone]
    rfl
  · rw [reduce_quotient hden, Rat.num_div_den]

theorem reduce_tokens_of_neg {r : Rat} (h : r < 0) :
    (reduce (tokens r)).outcome = .error (.invalidExpression .missingOperand) := by
  have hden : (r.den : Rat) ≠ 0 := by exact_mod_cast r.den_ne_zero
  rw [tokens, if_pos h]
  split
  · rfl
  · exact reduce_sign_quotient hden

end Numeral

/-- The exact text of a value that is not negative evaluates to this value under all
settings. An integer takes no step; any other value takes one, the division of its numerator
by its denominator. The exact text of a negative value is refused under all settings, since
an operand is missing. -/
theorem evaluate_exact_text (s : Settings) (v : Rat) :
    (0 ≤ v → ∃ e, evaluate s (Numeral.ofRat v) = .ok e ∧ e.value = v ∧
        (v.den = 1 → e.steps = []) ∧
        (1 < v.den → e.steps = [⟨.div, v.num, v.den, v⟩] ∧
          e.stepLines = [(Token.op .div).lineText v.num v.den v])) ∧
      (v < 0 → evaluate s (Numeral.ofRat v) = .error (.invalidExpression .missingOperand)) := by
  have heval := evaluate_of_scan (scan_ofRat s.policy v)
  constructor
  · intro hv
    rw [Numeral.reduce_tokens_of_nonneg hv] at heval
    refine ⟨_, heval, rfl, fun hone => if_pos hone, fun hden => ?_⟩
    rw [Evaluation.stepLines, if_neg hden.ne']
    exact ⟨rfl, rfl⟩
  · intro hv
    rw [heval, Numeral.reduce_tokens_of_neg hv]
    rfl

theorem evaluate_exact_text_halves :
    (0 : Rat) ≤ 7 / 2 ∧ Numeral.ofRat (7 / 2) = "7/2" ∧
      (∃ e, evaluate .strict "7/2" = .ok e ∧ e.value = 7 / 2 ∧ e.stepLines = ["7 / 2 = 7/2"]) ∧
      (-7 / 2 : Rat) < 0 ∧ Numeral.ofRat (-7 / 2) = "-7/2" ∧
      evaluate .standard "-7/2" = .error (.invalidExpression .missingOperand) := by
  have htext : Numeral.ofRat (7 / 2) = "7/2" := by decide +kernel
  have hsigned : Numeral.ofRat (-7 / 2) = "-7/2" := by decide +kernel
  have hline : (Token.op .div).lineText (7 / 2 : Rat).num (7 / 2 : Rat).den (7 / 2) =
      "7 / 2 = 7/2" := by
    decide +kernel
  have hpos : (0 : Rat) ≤ 7 / 2 := by decide +kernel
  have hneg : (-7 / 2 : Rat) < 0 := by decide +kernel
  obtain ⟨e, he, hv, -, hsteps⟩ := (evaluate_exact_text .strict (7 / 2)).1 hpos
  have hrefused := (evaluate_exact_text .standard (-7 / 2)).2 hneg
  rw [htext] at he
  rw [hsigned] at hrefused
  rw [hline] at hsteps
  exact ⟨hpos, htext, ⟨e, he, hv, (hsteps (by decide +kernel)).2⟩, hneg, hsigned, hrefused⟩

end ExactCalc
