import ExactCalc.Numeral
import Mathlib.Algebra.Ring.Nat
import Mathlib.Data.List.Basic

/-!
# Digits and the number they spell

A run of digits is determined by its value and its length: some zeros, and then the numeral
of the value. Without a zero in front it is that numeral; written with a fixed width it is the
only run of this width with its value.
-/

set_option autoImplicit false

namespace ExactCalc.Numeral

theorem digitValue_lt {c : Char} (h : c.isDigit = true) : digitValue c < 10 := by
  have hc := Char.isDigit_iff_toNat.1 h
  have h0 : '0'.toNat = 48 := rfl
  have h9 : '9'.toNat = 57 := rfl
  rw [digitValue]
  omega

theorem digitChar_digitValue {c : Char} (h : c.isDigit = true) : (digitValue c).digitChar = c := by
  have hc := Char.isDigit_iff_toNat.1 h
  have h0 : '0'.toNat = 48 := rfl
  apply Char.toNat_inj.1
  rw [Nat.toNat_digitChar_of_lt_ten (digitValue_lt h), digitValue]
  omega

theorem toDigits_digitValue {c : Char} (h : c.isDigit = true) :
    Nat.toDigits 10 (digitValue c) = [c] := by
  rw [Nat.toDigits_of_lt_base (digitValue_lt h), digitChar_digitValue h]

theorem digitValue_pos {c : Char} (h : c.isDigit = true) (hc : c ≠ '0') : 0 < digitValue c := by
  apply Nat.pos_of_ne_zero
  intro h0
  apply hc
  rw [← digitChar_digitValue h, h0]
  rfl

/-- Digits behind a number that is not zero are its further digits. -/
theorem toDigits_append {n : Nat} (hn : 0 < n) {ds : List Char} (h : ∀ d ∈ ds, d.isDigit = true) :
    Nat.toDigits 10 n ++ ds = Nat.toDigits 10 (Nat.ofDigitChars 10 ds n) := by
  induction ds generalizing n with
  | nil => simp
  | cons d ds ih =>
    obtain ⟨hd, hds⟩ := List.forall_mem_cons.1 h
    calc Nat.toDigits 10 n ++ d :: ds
        = Nat.toDigits 10 n ++ Nat.toDigits 10 (digitValue d) ++ ds := by
          rw [toDigits_digitValue hd, List.append_assoc, List.singleton_append]
      _ = Nat.toDigits 10 (extend n d) ++ ds := by
          rw [Nat.toDigits_append_toDigits (by decide) hn (digitValue_lt hd), extend]
      _ = Nat.toDigits 10 (Nat.ofDigitChars 10 (d :: ds) n) := by
          rw [ih (by rw [extend]; omega) hds, Nat.ofDigitChars_cons]
          rfl

theorem toDigits_ofDigitChars_cons {d : Char} {ds : List Char} (hd : d ≠ '0')
    (h : ∀ c ∈ d :: ds, c.isDigit = true) :
    Nat.toDigits 10 (Nat.ofDigitChars 10 (d :: ds) 0) = d :: ds := by
  obtain ⟨hdigit, hds⟩ := List.forall_mem_cons.1 h
  have happend := toDigits_append (digitValue_pos hdigit hd) hds
  rw [toDigits_digitValue hdigit] at happend
  rw [Nat.ofDigitChars_cons, Nat.mul_zero, Nat.zero_add]
  exact happend.symm

/-- Digits are some zeros and then the numeral of their value. -/
theorem exists_zeros {ds : List Char} (hne : ds ≠ []) (h : ∀ d ∈ ds, d.isDigit = true) :
    ∃ k, ds = List.replicate k '0' ++ Nat.toDigits 10 (Nat.ofDigitChars 10 ds 0) ∧
      ds.length = k + (Nat.toDigits 10 (Nat.ofDigitChars 10 ds 0)).length := by
  have hsplit : ∃ k, ds = List.replicate k '0' ++ Nat.toDigits 10 (Nat.ofDigitChars 10 ds 0) := by
    induction ds with
    | nil => exact absurd rfl hne
    | cons d ds ih =>
      by_cases hd : d = '0'
      · subst hd
        cases ds with
        | nil => exact ⟨0, rfl⟩
        | cons e ds =>
          obtain ⟨k, hk⟩ := ih (by simp) (List.forall_mem_cons.1 h).2
          exact ⟨k + 1, congrArg ('0' :: ·) hk⟩
      · exact ⟨0, (toDigits_ofDigitChars_cons hd h).symm⟩
  obtain ⟨k, hk⟩ := hsplit
  have hlen := congrArg List.length hk
  rw [List.length_append, List.length_replicate] at hlen
  exact ⟨k, hk, hlen⟩

theorem ofDigitChars_lt {ds : List Char} (h : ∀ d ∈ ds, d.isDigit = true) :
    Nat.ofDigitChars 10 ds 0 < 10 ^ ds.length := by
  by_cases hne : ds = []
  · subst hne
    decide
  · obtain ⟨k, -, hlen⟩ := exists_zeros hne h
    exact (Nat.length_toDigits_le_iff (by decide) (List.length_pos_iff.2 hne)).1 (by omega)

theorem ofDigitChars_eq_zero_iff {ds : List Char} (h : ∀ d ∈ ds, d.isDigit = true) :
    Nat.ofDigitChars 10 ds 0 = 0 ↔ ∀ d ∈ ds, d = '0' := by
  constructor
  · intro h0 d hd
    obtain ⟨k, hk, -⟩ := exists_zeros (List.ne_nil_of_mem hd) h
    rw [hk, h0, List.mem_append] at hd
    rcases hd with hd | hd
    · exact List.eq_of_mem_replicate hd
    · simpa using hd
  · intro hzero
    rw [List.eq_replicate_of_mem hzero, Nat.ofDigitChars_replicate_zero, Nat.mul_zero]

/-- The numeral of a number that is not zero has no idle zero in front. -/
theorem toDigits_first {n : Nat} (hn : 0 < n) : ∃ d ∈ (Nat.toDigits 10 n).head?, d ≠ '0' := by
  have hvalue : Nat.ofDigitChars 10 (Nat.toDigits 10 n) 0 = n := Nat.ofDigitChars_ten_toDigits
  have hdigits : ∀ c ∈ Nat.toDigits 10 n, c.isDigit = true :=
    fun _ hc => isDigit_of_mem_toDigits hc
  cases hds : Nat.toDigits 10 n with
  | nil => exact absurd hds Nat.toDigits_ne_nil
  | cons d ds =>
    refine ⟨d, rfl, ?_⟩
    rintro rfl
    rw [hds] at hvalue hdigits
    -- without the zero the digits have the same value, and too few of them for it
    have hrest : Nat.ofDigitChars 10 ds 0 = n := hvalue
    have hlt := ofDigitChars_lt (List.forall_mem_cons.1 hdigits).2
    have hne : 0 < ds.length := by
      apply List.length_pos_iff.2
      rintro rfl
      rw [Nat.ofDigitChars_nil] at hrest
      omega
    rw [hrest, ← Nat.length_toDigits_le_iff (by decide) hne, hds, List.length_cons] at hlt
    omega

/-- The digits of a number below `10 ^ width`, just `width` of them. -/
def fixed (width n : Nat) : List Char :=
  if width = 0 then [] else (Nat.toDigits 10 n).leftpad width '0'

theorem isDigit_of_mem_fixed {width n : Nat} : ∀ d ∈ fixed width n, d.isDigit = true := by
  intro d hd
  unfold fixed at hd
  split at hd
  · cases hd
  · rw [List.leftpad, List.mem_append] at hd
    rcases hd with hd | hd
    · rw [List.eq_of_mem_replicate hd]
      rfl
    · exact isDigit_of_mem_toDigits hd

theorem length_fixed {width n : Nat} (h : n < 10 ^ width) : (fixed width n).length = width := by
  unfold fixed
  split
  · simp [*]
  · rename_i hw
    rw [List.length_leftpad]
    exact max_eq_left ((Nat.length_toDigits_le_iff (by decide) (Nat.pos_of_ne_zero hw)).2 h)

theorem ofDigitChars_fixed {width n : Nat} (h : n < 10 ^ width) :
    Nat.ofDigitChars 10 (fixed width n) 0 = n := by
  unfold fixed
  split
  · subst_vars
    rw [Nat.ofDigitChars_nil]
    exact (Nat.lt_one_iff.1 h).symm
  · rw [List.leftpad, Nat.ofDigitChars_append, Nat.ofDigitChars_replicate_zero, Nat.mul_zero,
      Nat.ofDigitChars_ten_toDigits]

theorem fixed_ofDigitChars {ds : List Char} (h : ∀ d ∈ ds, d.isDigit = true) :
    fixed ds.length (Nat.ofDigitChars 10 ds 0) = ds := by
  by_cases hne : ds = []
  · subst hne
    rfl
  · obtain ⟨k, hk, hlen⟩ := exists_zeros hne h
    have hpad : ds.length - (Nat.toDigits 10 (Nat.ofDigitChars 10 ds 0)).length = k := by omega
    rw [fixed, if_neg (by simpa using hne), List.leftpad, hpad]
    exact hk.symm

end ExactCalc.Numeral
