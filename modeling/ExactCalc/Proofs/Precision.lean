import ExactCalc.Proofs.Truncation
import Mathlib.Algebra.Order.Field.Basic

/-!
# Readings of several precisions and values

With more decimals a reading goes on where the shorter one stops: what is cut off once and
what is cut off twice end at the same place. The opposite value has the same digits, and values in
order have readings in order. A sign may appear with a further decimal and does not
disappear again.
-/

set_option autoImplicit false

namespace ExactCalc

namespace Numeral

/-- Digits of fixed width one behind the other are the digits of the joined width. -/
theorem fixed_append {d k a b : Nat} (ha : a < 10 ^ d) (hb : b < 10 ^ k) :
    fixed (d + k) (10 ^ k * a + b) = fixed d a ++ fixed k b := by
  have hdigits : ∀ c ∈ fixed d a ++ fixed k b, c.isDigit = true :=
    List.forall_mem_append.2 ⟨isDigit_of_mem_fixed, isDigit_of_mem_fixed⟩
  have hback := fixed_ofDigitChars hdigits
  rwa [List.length_append, length_fixed ha, length_fixed hb, Nat.ofDigitChars_append,
    Nat.ofDigitChars_eq_ofDigitChars_zero, length_fixed hb, ofDigitChars_fixed ha,
    ofDigitChars_fixed hb] at hback

end Numeral

namespace Reading

/-- The digits of a number that counts units of the last place, with the point. -/
def digitText (digits n : Nat) : List Char :=
  Nat.toDigits 10 (n / 10 ^ digits) ++
    if digits = 0 then [] else '.' :: Numeral.fixed digits (n % 10 ^ digits)

/-- With `k` decimals cut off, the text is a beginning of what it was. -/
theorem digitText_div_prefix (digits k n : Nat) :
    digitText digits (n / 10 ^ k) <+: digitText (digits + k) n := by
  have hwhole : n / 10 ^ k / 10 ^ digits = n / 10 ^ (digits + k) := by
    rw [Nat.div_div_eq_div_mul, ← pow_add, Nat.add_comm k]
  unfold digitText
  rw [hwhole]
  by_cases hd : digits = 0
  · rw [if_pos hd, List.append_nil]
    exact List.prefix_append _ _
  · have hmod : n % 10 ^ (digits + k) = 10 ^ k * (n / 10 ^ k % 10 ^ digits) + n % 10 ^ k := by
      rw [Nat.add_comm digits, pow_add, Nat.mod_mul, Nat.add_comm]
    have hpos : ∀ j, 0 < 10 ^ j := fun j => Nat.pow_pos (by decide)
    rw [if_neg hd, if_neg (by omega), hmod,
      Numeral.fixed_append (Nat.mod_lt _ (hpos digits)) (Nat.mod_lt _ (hpos k)),
      ← List.cons_append, ← List.append_assoc]
    exact List.prefix_append _ _

theorem splitSign_ofScaled {digits : Nat} (h : digits < exponentBound) (z : Int) :
    splitSign (ofScaled z digits).toList = (decide (z < 0), digitText digits z.natAbs) := by
  rw [ofScaled_eq_text h, Decimal.toList_text,
    splitSign_append _ ((Decimal.ofInt z digits).head?_whole_append _)]
  rfl

/-- Whether a text has a sign in front. -/
def signed (text : String) : Bool := (splitSign text.toList).1

/-- A text without the sign it may have in front. -/
def unsigned (text : String) : List Char := (splitSign text.toList).2

section Coherence

variable {digits : Nat}

theorem signed_ofRat (h : digits < exponentBound) (r : Rat) :
    signed (ofRat r digits) = decide (scaled r digits < 0) :=
  congrArg Prod.fst (splitSign_ofScaled h _)

theorem unsigned_ofRat (h : digits < exponentBound) (r : Rat) :
    unsigned (ofRat r digits) = digitText digits (scaled r digits).natAbs :=
  congrArg Prod.snd (splitSign_ofScaled h _)

theorem natAbs_scaled_div {k : Nat} (h : digits + k < exponentBound) (r : Rat) :
    (scaled r (digits + k)).natAbs / 10 ^ k = (scaled r digits).natAbs := by
  rw [natAbs_scaled h, natAbs_scaled (by omega), ← Nat.floor_div_natCast]
  congr 1
  push_cast
  rw [pow_add]
  field_simp

theorem scaled_opposite (r : Rat) (digits : Nat) :
    scaled (-r) digits = -scaled r digits := by
  rw [scaled, scaled, Rat.num_neg_eq_neg_num, Rat.neg_den, Int.neg_mul, Int.neg_tdiv]

theorem scaled_nonneg (h : digits < exponentBound) {r : Rat} (hr : 0 ≤ r) :
    0 ≤ scaled r digits := by
  apply not_lt.1
  intro hneg
  exact absurd ((scaled_neg_iff h r).1 hneg).1 (not_lt.2 hr)

theorem scaled_of_nonneg (h : digits < exponentBound) {r : Rat} (hr : 0 ≤ r) :
    scaled r digits = ⌊r * 10 ^ digits⌋₊ := by
  rw [← Int.natAbs_of_nonneg (scaled_nonneg h hr), natAbs_scaled h, abs_of_nonneg hr]

theorem scaled_mono_of_nonneg (h : digits < exponentBound) {r s : Rat} (hr : 0 ≤ r) (hrs : r ≤ s) :
    scaled r digits ≤ scaled s digits := by
  rw [scaled_of_nonneg h hr, scaled_of_nonneg h (hr.trans hrs)]
  exact_mod_cast Nat.floor_mono (by gcongr)

/-- Truncation toward zero keeps the order, on either side of zero and across it. -/
theorem scaled_mono (h : digits < exponentBound) {r s : Rat} (hrs : r ≤ s) :
    scaled r digits ≤ scaled s digits := by
  rcases le_total 0 r with hr | hr
  · exact scaled_mono_of_nonneg h hr hrs
  rcases le_total 0 s with hs | hs
  · have hleft := scaled_nonneg h (neg_nonneg.2 hr)
    rw [scaled_opposite, Int.neg_nonneg] at hleft
    exact hleft.trans (scaled_nonneg h hs)
  · have hswapped := scaled_mono_of_nonneg h (neg_nonneg.2 hs) (neg_le_neg hrs)
    rwa [scaled_opposite, scaled_opposite, Int.neg_le_neg_iff] at hswapped

theorem number?_ofRat (h : digits < exponentBound) (r : Rat) :
    number? (ofRat r digits) = some ((scaled r digits : Rat) / 10 ^ digits) := by
  rw [ofRat, ofScaled_eq_text h, Decimal.number?_text, Decimal.toInt_ofInt]

/-- A sign shows at one unit of the last place, and no decimal more takes it away. -/
theorem signed_of_le {more : Nat} (hle : digits ≤ more) (h : more < exponentBound) (r : Rat)
    (hs : signed (ofRat r digits) = true) : signed (ofRat r more) = true := by
  rw [signed_ofRat (by omega), decide_eq_true_eq, scaled_neg_iff (by omega)] at hs
  rw [signed_ofRat h, decide_eq_true_eq, scaled_neg_iff h]
  refine ⟨hs.1, hs.2.trans ?_⟩
  gcongr
  norm_num

theorem ofRat_neg_eq_iff (h : digits < exponentBound) (r : Rat) :
    ofRat (-r) digits = ofRat r digits ↔ |r| * 10 ^ digits < 1 := by
  rw [← scaled_eq_zero_iff h]
  constructor
  · intro heq
    have hsign := congrArg signed heq
    rw [signed_ofRat h, signed_ofRat h, scaled_opposite, decide_eq_decide] at hsign
    omega
  · intro hz
    rw [ofRat, ofRat, scaled_opposite, hz, neg_zero]

end Coherence

/-- Readings agree with one another. With more decimals the digits of a reading are
continued, and its sign, if it has one, stays. The reading of the opposite value has the same
digits behind its sign, and is the same text exactly if the value is below one unit of the
last place. Of two values in order the readings, as numbers, are in order too. -/
theorem ofRat_coherent :
    (∀ (r : Rat) (digits more : Nat), digits ≤ more → more < exponentBound →
        unsigned (ofRat r digits) <+: unsigned (ofRat r more) ∧
          (signed (ofRat r digits) = true → signed (ofRat r more) = true)) ∧
      (∀ (r : Rat) (digits : Nat), digits < exponentBound →
        unsigned (ofRat (-r) digits) = unsigned (ofRat r digits) ∧
          (ofRat (-r) digits = ofRat r digits ↔ |r| * 10 ^ digits < 1)) ∧
      ∀ (r s : Rat) (digits : Nat), r ≤ s → digits < exponentBound →
        ∃ p q, number? (ofRat r digits) = some p ∧ number? (ofRat s digits) = some q ∧ p ≤ q := by
  refine ⟨fun r digits more hle h => ⟨?_, signed_of_le hle h r⟩,
    fun r digits h => ⟨?_, ofRat_neg_eq_iff h r⟩, fun r s digits hrs h => ?_⟩
  · obtain ⟨k, rfl⟩ := Nat.exists_eq_add_of_le hle
    rw [unsigned_ofRat h, unsigned_ofRat (by omega), ← natAbs_scaled_div h]
    exact digitText_div_prefix digits k _
  · rw [unsigned_ofRat h, unsigned_ofRat h, scaled_opposite, Int.natAbs_neg]
  · refine ⟨_, _, number?_ofRat h r, number?_ofRat h s, ?_⟩
    have hscaled : (scaled r digits : Rat) ≤ scaled s digits := by
      exact_mod_cast scaled_mono h hrs
    gcongr

/-- A third below zero shows its sign with the first decimal, not before. -/
theorem ofRat_coherent_third :
    0 ≤ 2 ∧ 2 < exponentBound ∧ ofRat (-1 / 3) 0 = "0" ∧ ofRat (-1 / 3) 2 = "-0.33" ∧
      unsigned "0" <+: unsigned "-0.33" ∧ ofRat (-(-1 / 3)) 0 = "0" ∧
      unsigned (ofRat (-(-1 / 3)) 2) = "0.33".toList ∧ (-1 / 3 : Rat) ≤ 1 / 4 ∧
      ∃ p q, number? "-0.33" = some p ∧ number? "0.25" = some q ∧ p ≤ q := by
  have hwhole : ofRat (-1 / 3) 0 = "0" := by decide +kernel
  have hthird : ofRat (-1 / 3) 2 = "-0.33" := by decide +kernel
  have hquarter : ofRat (1 / 4) 2 = "0.25" := by decide +kernel
  obtain ⟨hprecision, hopposite, horder⟩ := ofRat_coherent
  have hcontinued := (hprecision (-1 / 3) 0 2 (by decide) (by decide)).1
  have hsame := (hopposite (-1 / 3) 0 (by decide)).2
  have hdigits := (hopposite (-1 / 3) 2 (by decide)).1
  have hordered := horder (-1 / 3) (1 / 4) 2 (by norm_num) (by decide)
  rw [hwhole, hthird] at hcontinued
  rw [hwhole] at hsame
  rw [hthird] at hdigits hordered
  rw [hquarter] at hordered
  refine ⟨by decide, by decide, hwhole, hthird, hcontinued, hsame.2 ?_, hdigits.trans ?_,
    by norm_num, hordered⟩
  · rw [abs_of_neg (by norm_num)]
    norm_num
  · decide

end Reading

end ExactCalc
