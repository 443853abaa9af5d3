import ExactCalc.Proofs.DecimalText
import Mathlib.Algebra.Order.Floor.Semifield
import Mathlib.Data.Rat.Floor
import Mathlib.Data.Sign.Basic
import Mathlib.Tactic.FieldSimp
import Mathlib.Tactic.NormNum
import Mathlib.Tactic.Positivity
import Mathlib.Tactic.Ring

/-!
# Readings are truncated toward zero

A decimal text denotes a number by the places of its digits, and that number is compared here
with the rational whose reading the text is. It lies between zero and the rational, less than
one unit of the last place away from it. It is the integer part of the rational counted in
such units that is written, so the sign of a value below one unit is not.
-/

set_option autoImplicit false

namespace ExactCalc.Reading

/-- What digits behind the point denote: every place is worth a tenth of the one before. -/
def fraction : List Char → Rat
  | [] => 0
  | d :: ds => (Numeral.digitValue d + fraction ds) / 10

def isRun (ds : List Char) : Bool := !ds.isEmpty && ds.all Char.isDigit

/-- The number that is written without a sign: digits, or digits on both sides of a point. -/
def unsigned? (cs : List Char) : Option Rat :=
  let whole := cs.takeWhile (· ≠ '.')
  if isRun whole then
    match cs.dropWhile (· ≠ '.') with
    | [] => some (Nat.ofDigitChars 10 whole 0 : Nat)
    | _ :: ds =>
      if isRun ds then some ((Nat.ofDigitChars 10 whole 0 : Nat) + fraction ds) else none
  else none

/-- The number that a decimal text denotes. -/
def number? (text : String) : Option Rat :=
  let s := splitSign text.toList
  (unsigned? s.2).map fun q => if s.1 then -q else q

theorem fraction_eq (ds : List Char) :
    fraction ds = (Nat.ofDigitChars 10 ds 0 : Rat) / 10 ^ ds.length := by
  induction ds with
  | nil => simp [fraction]
  | cons d ds ih =>
    have hvalue : Nat.ofDigitChars 10 (d :: ds) 0 =
        10 ^ ds.length * Numeral.digitValue d + Nat.ofDigitChars 10 ds 0 := by
      rw [Nat.ofDigitChars_cons, Nat.ofDigitChars_eq_ofDigitChars_zero, Nat.mul_zero, Nat.zero_add]
      rfl
    rw [fraction, ih, hvalue, List.length_cons]
    push_cast
    field_simp
    ring

theorem isRun_of_digits {ds : List Char} (hne : ds ≠ []) (h : ∀ d ∈ ds, d.isDigit = true) :
    isRun ds = true := by
  simp [isRun, hne, List.all_eq_true.2 h]

namespace Decimal

variable {digits : Nat}

theorem isRun_whole (d : Decimal digits) : isRun d.whole = true := by
  apply isRun_of_digits _ d.whole_digits
  obtain ⟨c, hc, -⟩ := d.whole_head
  intro h
  rw [h] at hc
  cases hc

theorem unsigned?_text (d : Decimal digits) :
    unsigned? (d.whole ++ if digits = 0 then [] else '.' :: d.decimals) =
      some ((d.magnitude : Rat) / 10 ^ digits) := by
  have hwhole : ∀ c ∈ d.whole, decide (c ≠ '.') = true := fun c hc => ne_point (d.whole_digits c hc)
  have hmag : (d.magnitude : Rat) / 10 ^ digits =
      Nat.ofDigitChars 10 d.whole 0 + fraction d.decimals := by
    rw [magnitude_eq, fraction_eq, d.decimals_length]
    push_cast
    field_simp
  rw [hmag, unsigned?, List.takeWhile_append_of_pos hwhole, List.dropWhile_append_of_pos hwhole]
  split
  · have hnil : d.decimals = [] := List.length_eq_zero_iff.1 (d.decimals_length.trans ‹_›)
    simp [d.isRun_whole, hnil, fraction]
  · have hne : d.decimals ≠ [] := by
      intro hnil
      exact ‹¬ digits = 0› (d.decimals_length.symm.trans (by rw [hnil]; rfl))
    simp [d.isRun_whole, isRun_of_digits hne d.decimals_digits]

/-- A decimal text denotes its integer in units of the last place. -/
theorem number?_text (d : Decimal digits) :
    number? d.text = some ((d.toInt : Rat) / 10 ^ digits) := by
  rw [number?, toList_text, splitSign_append _ (d.head?_whole_append _), unsigned?_text, toInt]
  cases d.negative with
  | true => simp [neg_div]
  | false => simp

theorem head?_text_iff (d : Decimal digits) : d.text.toList.head? = some '-' ↔ d.toInt < 0 := by
  rw [toInt_neg_iff, toList_text]
  cases d.negative with
  | true => simp
  | false => simpa using d.head?_whole_append _

end Decimal

section Scaled

variable {digits : Nat}

theorem scaled_eq (h : digits < exponentBound) (r : Rat) :
    scaled r digits = (r.num * 10 ^ digits).tdiv r.den := by
  rw [scaled, unit_eq h]
  push_cast
  rfl

theorem abs_eq_div (r : Rat) : |r| = (r.num.natAbs : Rat) / r.den := by
  conv_lhs => rw [← Rat.num_div_den r]
  rw [abs_div, Nat.cast_natAbs, Int.cast_abs, Nat.abs_cast]

/-- The digits that are written count the whole units of the last place. -/
theorem natAbs_scaled (h : digits < exponentBound) (r : Rat) :
    (scaled r digits).natAbs = ⌊|r| * 10 ^ digits⌋₊ := by
  have hscaled : |r| * 10 ^ digits = ((r.num.natAbs * 10 ^ digits : Nat) : Rat) / r.den := by
    rw [abs_eq_div]
    push_cast
    ring
  rw [scaled_eq h, Int.natAbs_tdiv, hscaled, Nat.floor_div_eq_div, Int.natAbs_mul, Int.natAbs_pow]
  rfl

theorem abs_scaled (h : digits < exponentBound) (r : Rat) :
    |(scaled r digits : Rat)| = ⌊|r| * 10 ^ digits⌋₊ := by
  rw [← natAbs_scaled h, Nat.cast_natAbs, Int.cast_abs]

theorem scaled_eq_zero_iff (h : digits < exponentBound) (r : Rat) :
    scaled r digits = 0 ↔ |r| * 10 ^ digits < 1 := by
  rw [← Int.natAbs_eq_zero, natAbs_scaled h, Nat.floor_eq_zero]

theorem sign_scaled (h : digits < exponentBound) {r : Rat} (hz : scaled r digits ≠ 0) :
    (scaled r digits).sign = r.num.sign := by
  rw [scaled_eq h] at hz ⊢
  rw [ne_eq, ← Int.sign_eq_zero_iff_zero, Int.sign_tdiv] at hz
  rw [Int.sign_tdiv]
  split at hz
  · exact absurd rfl hz
  · rename_i hlt
    have hpow : (10 ^ digits : Int).sign = 1 := Int.sign_eq_one_of_pos (by positivity)
    have hden : (r.den : Int).sign = 1 := Int.sign_eq_one_of_pos (by exact_mod_cast r.den_pos)
    rw [if_neg hlt, Int.sign_mul, hpow, hden, mul_one, mul_one]

theorem scaled_neg_iff (h : digits < exponentBound) (r : Rat) :
    scaled r digits < 0 ↔ r < 0 ∧ 1 ≤ |r| * 10 ^ digits := by
  by_cases hz : scaled r digits = 0
  · have hlt := (scaled_eq_zero_iff h r).1 hz
    constructor
    · intro hneg
      omega
    · rintro ⟨-, hle⟩
      exact absurd hlt (not_lt.2 hle)
  · have hle := not_lt.1 ((scaled_eq_zero_iff h r).not.1 hz)
    rw [← Int.sign_eq_neg_one_iff_neg, sign_scaled h hz, Int.sign_eq_neg_one_iff_neg, Rat.num_neg]
    exact (and_iff_left hle).symm

/-- Nothing is cut off exactly if the value has no more than the decimals written. -/
theorem scaled_exact_iff (h : digits < exponentBound) (r : Rat) :
    (scaled r digits : Rat) / 10 ^ digits = r ↔ r.den ∣ 10 ^ digits := by
  constructor
  · intro hr
    have hdiv : Rat.divInt (scaled r digits) (10 ^ digits : Nat) = r := by
      rw [Rat.divInt_eq_div]
      exact_mod_cast hr
    have hdvd := Rat.den_dvd (scaled r digits) (10 ^ digits : Nat)
    rw [hdiv] at hdvd
    exact_mod_cast hdvd
  · intro hdvd
    have hmul : scaled r digits * r.den = r.num * 10 ^ digits := by
      rw [scaled_eq h]
      apply Int.tdiv_mul_cancel
      exact (Int.natCast_dvd_natCast.2 hdvd).mul_left r.num |>.trans (by push_cast; rfl)
    have hden : (r.den : Rat) ≠ 0 := by exact_mod_cast r.den_ne_zero
    have hcast : (scaled r digits : Rat) * r.den = r.num * 10 ^ digits := by exact_mod_cast hmul
    have hpow : (10 : Rat) ^ digits ≠ 0 := by positivity
    calc (scaled r digits : Rat) / 10 ^ digits = r.num / r.den := by
          rw [div_eq_div_iff hpow hden, hcast]
      _ = r := Rat.num_div_den r

theorem sign_scaled_div (h : digits < exponentBound) (r : Rat) :
    (scaled r digits : Rat) / 10 ^ digits = 0 ∨
      SignType.sign ((scaled r digits : Rat) / 10 ^ digits) = SignType.sign r := by
  have hpow : (0 : Rat) < 10 ^ digits := by positivity
  rcases lt_trichotomy (scaled r digits) 0 with hz | hz | hz
  · have hr := ((scaled_neg_iff h r).1 hz).1
    exact .inr (by rw [sign_neg (div_neg_of_neg_of_pos (by exact_mod_cast hz) hpow), sign_neg hr])
  · exact .inl (by rw [hz, Int.cast_zero, zero_div])
  · have hsign := sign_scaled h hz.ne'
    rw [Int.sign_eq_one_of_pos hz, eq_comm, Int.sign_eq_one_iff_pos, Rat.num_pos] at hsign
    exact .inr (by rw [sign_pos (div_pos (by exact_mod_cast hz) hpow), sign_pos hsign])

end Scaled

/-- The reading of a rational denotes a whole number of units of its last place. That number
is zero or has the sign of the rational, and of the rational it is what remains when less
than one such unit is cut off toward zero; nothing is cut off exactly if the denominator
divides the power of ten. The text has a sign exactly if the rational is negative by one unit
at least, so no zero is written with one. -/
theorem ofRat_truncated (r : Rat) (digits : Nat) (h : digits < exponentBound) :
    ∃ q, number? (ofRat r digits) = some q ∧
      (∃ z : Int, q * 10 ^ digits = z) ∧
      (q = 0 ∨ SignType.sign q = SignType.sign r) ∧
      |q| ≤ |r| ∧ |r| < |q| + 1 / 10 ^ digits ∧
      (q = r ↔ r.den ∣ 10 ^ digits) ∧
      ((ofRat r digits).toList.head? = some '-' ↔ r < 0 ∧ 1 ≤ |r| * 10 ^ digits) ∧
      ((ofRat r digits).toList.head? = some '-' → q < 0) := by
  have hpow : (0 : Rat) < 10 ^ digits := by positivity
  have habs : |(scaled r digits : Rat) / 10 ^ digits| = ⌊|r| * 10 ^ digits⌋₊ / 10 ^ digits := by
    rw [abs_div, abs_scaled h, abs_of_pos hpow]
  have hhead : (ofRat r digits).toList.head? = some '-' ↔ scaled r digits < 0 := by
    rw [ofRat, ofScaled_eq_text h, Decimal.head?_text_iff, Decimal.toInt_ofInt]
  refine ⟨(scaled r digits : Rat) / 10 ^ digits, ?_, ⟨scaled r digits, ?_⟩, ?_, ?_, ?_,
    scaled_exact_iff h r, ?_, ?_⟩
  · rw [ofRat, ofScaled_eq_text h, Decimal.number?_text, Decimal.toInt_ofInt]
  · field_simp
  · exact sign_scaled_div h r
  · rw [habs, div_le_iff₀ hpow]
    exact Nat.floor_le (by positivity)
  · rw [habs, ← add_div, lt_div_iff₀ hpow]
    exact Nat.lt_floor_add_one _
  · rw [hhead, scaled_neg_iff h]
  · intro hneg
    exact div_neg_of_neg_of_pos (by exact_mod_cast hhead.1 hneg) hpow

/-- Two thirds below zero are cut to `-0.666`. A third of a hundredth is less than one unit,
and its reading has no sign. -/
theorem ofRat_truncated_below_zero :
    3 < exponentBound ∧ ofRat (-2 / 3) 3 = "-0.666" ∧
      (∃ q, number? "-0.666" = some q ∧ q < 0 ∧ |q| ≤ |(-2 / 3 : Rat)| ∧
        |(-2 / 3 : Rat)| < |q| + 1 / 10 ^ 3) ∧
      2 < exponentBound ∧ ofRat (-1 / 300) 2 = "0.00" ∧ ¬ 1 ≤ |(-1 / 300 : Rat)| * 10 ^ 2 := by
  have hthirds : ofRat (-2 / 3) 3 = "-0.666" := by decide +kernel
  have hsmall : ofRat (-1 / 300) 2 = "0.00" := by decide +kernel
  obtain ⟨q, hq, -, -, hle, hlt, -, -, hneg⟩ := ofRat_truncated (-2 / 3) 3 (by decide)
  obtain ⟨-, -, -, -, -, -, -, hhead, -⟩ := ofRat_truncated (-1 / 300) 2 (by decide)
  rw [hthirds] at hq hneg
  rw [hsmall] at hhead
  have hunsigned : ¬ "0.00".toList.head? = some '-' := by decide
  exact ⟨by decide, hthirds, ⟨q, hq, hneg rfl, hle, hlt⟩, by decide, hsmall,
    fun hunit => hunsigned (hhead.2 ⟨by norm_num, hunit⟩)⟩

end ExactCalc.Reading
