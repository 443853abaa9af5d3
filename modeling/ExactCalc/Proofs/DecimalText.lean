import ExactCalc.Proofs.Digits
import ExactCalc.Reading
import Mathlib.Data.Set.Function

/-!
# Readings spell the integers

With the number of decimals fixed, an integer that counts units of the last place has one
text, and a text of the right form belongs to one integer. The form is that of `Decimal`:
no idle zero in front, all decimals written out, and a sign only where some digit is not
zero. The integer is read off such a text by dropping the point.
-/

set_option autoImplicit false

namespace ExactCalc.Reading

theorem unit_eq {digits : Nat} (h : digits < exponentBound) : unit digits = 10 ^ digits := by
  rw [unit, Nat.mod_eq_of_lt h]
  rfl

/-- The bound itself is the first exponent that counts for another one. -/
example : unit exponentBound = 1 := by decide

theorem toList_ofScaled (z : Int) (digits : Nat) :
    (ofScaled z digits).toList =
      (if z < 0 then ['-'] else []) ++ Nat.toDigits 10 (z.natAbs / unit digits) ++
        if digits = 0 then [] else '.' :: Numeral.fixed digits (z.natAbs % unit digits) := by
  have hsign : (if z < 0 then "-" else "").toList = if z < 0 then ['-'] else [] := by
    split <;> rfl
  unfold ofScaled
  by_cases hd : digits = 0
  · simp [hd, hsign, Numeral.toList_ofNat]
  · simp [hd, hsign, Numeral.toList_ofNat, padded, Numeral.fixed]

/-- A number with a fixed number of decimals, cut into the parts it is written with. -/
@[ext]
structure Decimal (digits : Nat) where
  negative : Bool
  whole : List Char
  decimals : List Char
  whole_digits : ∀ d ∈ whole, d.isDigit = true
  /-- No idle zero in front. -/
  whole_first : whole = ['0'] ∨ ∃ d ∈ whole.head?, d ≠ '0'
  decimals_digits : ∀ d ∈ decimals, d.isDigit = true
  decimals_length : decimals.length = digits
  /-- Zero has no sign, however many decimals it is written with. -/
  sign_needed : negative = true → ∃ d ∈ whole ++ decimals, d ≠ '0'

namespace Decimal

variable {digits : Nat}

/-- `[-]I` without decimals, else `[-]I.F`. -/
def text (d : Decimal digits) : String :=
  String.ofList ((if d.negative then ['-'] else []) ++ d.whole ++
    if digits = 0 then [] else '.' :: d.decimals)

/-- All digits as one number. -/
def magnitude (d : Decimal digits) : Nat := Nat.ofDigitChars 10 (d.whole ++ d.decimals) 0

def toInt (d : Decimal digits) : Int := if d.negative then -d.magnitude else d.magnitude

theorem magnitude_eq (d : Decimal digits) :
    d.magnitude =
      10 ^ digits * Nat.ofDigitChars 10 d.whole 0 + Nat.ofDigitChars 10 d.decimals 0 := by
  rw [magnitude, Nat.ofDigitChars_append, Nat.ofDigitChars_eq_ofDigitChars_zero,
    d.decimals_length]

theorem all_digits (d : Decimal digits) : ∀ c ∈ d.whole ++ d.decimals, c.isDigit = true :=
  List.forall_mem_append.2 ⟨d.whole_digits, d.decimals_digits⟩

theorem decimals_lt (d : Decimal digits) : Nat.ofDigitChars 10 d.decimals 0 < 10 ^ digits := by
  have h := Numeral.ofDigitChars_lt d.decimals_digits
  rwa [d.decimals_length] at h

theorem magnitude_pos_of_negative (d : Decimal digits) (h : d.negative = true) :
    0 < d.magnitude := by
  obtain ⟨c, hc, hne⟩ := d.sign_needed h
  apply Nat.pos_of_ne_zero
  intro h0
  exact hne ((Numeral.ofDigitChars_eq_zero_iff d.all_digits).1 h0 c hc)

theorem natAbs_toInt (d : Decimal digits) : d.toInt.natAbs = d.magnitude := by
  unfold toInt
  split <;> simp

theorem toInt_neg_iff (d : Decimal digits) : d.toInt < 0 ↔ d.negative = true := by
  unfold toInt
  split
  · rename_i h
    have := d.magnitude_pos_of_negative h
    simp [h]
    omega
  · rename_i h
    simp [h]

theorem toDigits_whole (d : Decimal digits) :
    Nat.toDigits 10 (Nat.ofDigitChars 10 d.whole 0) = d.whole := by
  rcases d.whole_first with h | ⟨c, hc, hne⟩
  · rw [h]
    rfl
  · obtain ⟨cs, hcs⟩ := List.head?_eq_some_iff.1 hc
    have hdigits := d.whole_digits
    rw [hcs] at hdigits ⊢
    exact Numeral.toDigits_ofDigitChars_cons hne hdigits

theorem ofDigitChars_parts (n digits : Nat) :
    Nat.ofDigitChars 10
      (Nat.toDigits 10 (n / 10 ^ digits) ++ Numeral.fixed digits (n % 10 ^ digits)) 0 = n := by
  have hlt : n % 10 ^ digits < 10 ^ digits := Nat.mod_lt n (Nat.pow_pos (by decide))
  rw [Nat.ofDigitChars_append, Nat.ofDigitChars_eq_ofDigitChars_zero, Numeral.length_fixed hlt,
    Numeral.ofDigitChars_fixed hlt, Nat.ofDigitChars_ten_toDigits, Nat.div_add_mod]

/-- The parts of an integer that counts units of the last place. -/
def ofInt (z : Int) (digits : Nat) : Decimal digits where
  negative := z < 0
  whole := Nat.toDigits 10 (z.natAbs / 10 ^ digits)
  decimals := Numeral.fixed digits (z.natAbs % 10 ^ digits)
  whole_digits := fun _ hd => Numeral.isDigit_of_mem_toDigits hd
  whole_first := by
    rcases Nat.eq_zero_or_pos (z.natAbs / 10 ^ digits) with h | h
    · rw [h]
      exact .inl rfl
    · exact .inr (Numeral.toDigits_first h)
  decimals_digits := Numeral.isDigit_of_mem_fixed
  decimals_length := Numeral.length_fixed (Nat.mod_lt _ (Nat.pow_pos (by decide)))
  sign_needed := by
    intro hz
    by_contra hall
    have hzero : ∀ d ∈ Nat.toDigits 10 (z.natAbs / 10 ^ digits) ++
        Numeral.fixed digits (z.natAbs % 10 ^ digits), d = '0' := by
      simpa using hall
    rw [← Numeral.ofDigitChars_eq_zero_iff, ofDigitChars_parts] at hzero
    · simp only [decide_eq_true_eq] at hz
      omega
    · exact List.forall_mem_append.2
        ⟨fun _ hd => Numeral.isDigit_of_mem_toDigits hd, Numeral.isDigit_of_mem_fixed⟩

theorem toInt_ofInt (z : Int) : (ofInt z digits).toInt = z := by
  have hmag : (ofInt z digits).magnitude = z.natAbs := ofDigitChars_parts z.natAbs digits
  have hneg : (ofInt z digits).negative = decide (z < 0) := rfl
  rw [toInt, hmag, hneg]
  split
  · rename_i h
    have := of_decide_eq_true h
    omega
  · rename_i h
    have := of_decide_eq_false (Bool.eq_false_of_not_eq_true h)
    omega

theorem ofInt_toInt (d : Decimal digits) : ofInt d.toInt digits = d := by
  have hdiv : d.magnitude / 10 ^ digits = Nat.ofDigitChars 10 d.whole 0 := by
    rw [magnitude_eq, Nat.mul_add_div (Nat.pow_pos (by decide)), Nat.div_eq_of_lt d.decimals_lt,
      Nat.add_zero]
  have hmod : d.magnitude % 10 ^ digits = Nat.ofDigitChars 10 d.decimals 0 := by
    rw [magnitude_eq, Nat.mul_add_mod, Nat.mod_eq_of_lt d.decimals_lt]
  ext1
  · simp [ofInt, d.toInt_neg_iff]
  · simp only [ofInt, natAbs_toInt, hdiv, toDigits_whole]
  · have hfixed := Numeral.fixed_ofDigitChars d.decimals_digits
    rw [d.decimals_length] at hfixed
    simp only [ofInt, natAbs_toInt, hmod, hfixed]

end Decimal

theorem ofScaled_eq_text {digits : Nat} (h : digits < exponentBound) (z : Int) :
    ofScaled z digits = (Decimal.ofInt z digits).text := by
  apply String.toList_injective
  rw [toList_ofScaled, unit_eq h, Decimal.text, String.toList_ofList]
  simp [Decimal.ofInt]

/-- Whether there is a sign in front, and what is behind it. -/
def splitSign : List Char → Bool × List Char
  | '-' :: cs => (true, cs)
  | cs => (false, cs)

theorem splitSign_append (negative : Bool) {cs : List Char} (h : cs.head? ≠ some '-') :
    splitSign ((if negative then ['-'] else []) ++ cs) = (negative, cs) := by
  cases negative with
  | true => rfl
  | false =>
    cases cs with
    | nil => rfl
    | cons c cs =>
      have hc : c ≠ '-' := by simpa using h
      simp [splitSign, hc]

/-- The integer that a text spells when its point is dropped. -/
def units (text : String) : Int :=
  let s := splitSign (text.toList.filter (· ≠ '.'))
  if s.1 then -(Nat.ofDigitChars 10 s.2 0 : Nat) else (Nat.ofDigitChars 10 s.2 0 : Nat)

theorem ne_point {c : Char} (h : c.isDigit = true) : decide (c ≠ '.') = true := by
  have hne : c ≠ '.' := by
    rintro rfl
    exact absurd h (by decide)
  simpa using hne

theorem filter_digits {cs : List Char} (h : ∀ c ∈ cs, c.isDigit = true) :
    cs.filter (· ≠ '.') = cs :=
  List.filter_eq_self.2 fun c hc => ne_point (h c hc)

namespace Decimal

variable {digits : Nat}

theorem toList_text (d : Decimal digits) :
    d.text.toList = (if d.negative then ['-'] else []) ++
      (d.whole ++ if digits = 0 then [] else '.' :: d.decimals) := by
  rw [text, String.toList_ofList, List.append_assoc]

theorem whole_head (d : Decimal digits) : ∃ c ∈ d.whole.head?, c.isDigit = true := by
  cases hw : d.whole with
  | nil =>
    have hfirst := d.whole_first
    rw [hw] at hfirst
    rcases hfirst with h | ⟨c, hc, -⟩
    · cases h
    · cases hc
  | cons c cs => exact ⟨c, rfl, d.whole_digits c (by simp [hw])⟩

/-- Behind the sign there is a digit. -/
theorem head?_whole_append (d : Decimal digits) (cs : List Char) :
    (d.whole ++ cs).head? ≠ some '-' := by
  obtain ⟨c, hc, hdigit⟩ := d.whole_head
  rw [List.head?_append, Option.mem_def.1 hc]
  intro h
  cases h
  exact absurd hdigit (by decide)

theorem filter_text (d : Decimal digits) :
    d.text.toList.filter (· ≠ '.') =
      (if d.negative then ['-'] else []) ++ (d.whole ++ d.decimals) := by
  have hsign : (if d.negative then ['-'] else []).filter (· ≠ '.') =
      if d.negative then ['-'] else [] := by
    split <;> rfl
  have hpoint : (if digits = 0 then [] else '.' :: d.decimals).filter (· ≠ '.') = d.decimals := by
    split
    · rename_i h
      exact (List.length_eq_zero_iff.1 (d.decimals_length.trans h)).symm
    · rw [List.filter_cons_of_neg (by simp), filter_digits d.decimals_digits]
  rw [toList_text, List.filter_append, List.filter_append, hsign, hpoint,
    filter_digits d.whole_digits]

theorem units_text (d : Decimal digits) : units d.text = d.toInt := by
  rw [units, filter_text, splitSign_append _ (d.head?_whole_append _)]
  rfl

end Decimal

/-- For every number of decimals, the integers and the texts of `Decimal` numbers are in
bijection: every integer is written in that form, and dropping the point gives it back; every
text of that form is how the integer it spells is written. -/
theorem ofScaled_bijective (digits : Nat) (h : digits < exponentBound) :
    Set.BijOn (ofScaled · digits) Set.univ {text | ∃ d : Decimal digits, text = d.text} ∧
      (∀ z, units (ofScaled z digits) = z) ∧
      ∀ d : Decimal digits, ofScaled (units d.text) digits = d.text := by
  have hback : ∀ z, units (ofScaled z digits) = z := by
    intro z
    rw [ofScaled_eq_text h, Decimal.units_text, Decimal.toInt_ofInt]
  have hforth : ∀ d : Decimal digits, ofScaled (units d.text) digits = d.text := by
    intro d
    rw [ofScaled_eq_text h, Decimal.units_text, Decimal.ofInt_toInt]
  refine ⟨⟨?_, ?_, ?_⟩, hback, hforth⟩
  · intro z _
    exact ⟨Decimal.ofInt z digits, ofScaled_eq_text h z⟩
  · exact (Function.LeftInverse.injective hback).injOn
  · rintro _ ⟨d, rfl⟩
    exact ⟨units d.text, trivial, hforth d⟩

/-- Five hundredths below zero need a sign and two zeros, and no other integer is so written. -/
theorem ofScaled_bijective_hundredths :
    2 < exponentBound ∧ ofScaled (-5) 2 = "-0.05" ∧ units "-0.05" = -5 ∧
      ∀ z, ofScaled z 2 = "-0.05" → z = -5 := by
  obtain ⟨⟨-, hinj, -⟩, hback, -⟩ := ofScaled_bijective 2 (by decide)
  have htext : ofScaled (-5) 2 = "-0.05" := by decide +kernel
  have hunits := hback (-5)
  rw [htext] at hunits
  refine ⟨by decide, htext, hunits, fun z hz => ?_⟩
  exact hinj trivial trivial (hz.trans htext.symm)

end ExactCalc.Reading
