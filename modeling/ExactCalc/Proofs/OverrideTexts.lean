import ExactCalc.Policy
import ExactCalc.Text.Unsigned

/-!
# What an override text means

Override texts are read with the blanks at their ends taken off. A policy goes by its names in
any ASCII letter case. A number of decimals is a run of digits behind at most one plus sign
and must fit 64 bits; the reader goes from left to right, so of a long run followed by
something else it sees the overflow first. Reading is compared here with descriptions of the
texts that do not read them.
-/

set_option autoImplicit false

namespace ExactCalc

namespace Text

/-- `ds` is `cs` without the blanks at its two ends. -/
structure Trimmed (cs ds : List Char) : Prop where
  split : ∃ as bs, cs = as ++ (ds ++ bs) ∧ (∀ c ∈ as, isBlank c = true) ∧ ∀ c ∈ bs, isBlank c = true
  head : ∀ c ∈ ds.head?, isBlank c = false
  last : ∀ c ∈ ds.getLast?, isBlank c = false

theorem dropWhile_of_head {p : Char → Bool} {cs : List Char} (h : ∀ c ∈ cs.head?, p c = false) :
    cs.dropWhile p = cs := by
  cases cs with
  | nil => rfl
  | cons c cs => exact List.dropWhile_cons_of_neg (by simp [h c rfl])

theorem trimEnd_append_of_forall {p : Char → Bool} {bs : List Char} (h : ∀ c ∈ bs, p c = true)
    (cs : List Char) : trimEnd p (cs ++ bs) = trimEnd p cs := by
  rw [trimEnd, List.reverse_append, List.dropWhile_append_of_pos (by simpa using h), trimEnd]

theorem trimEnd_of_last {p : Char → Bool} {cs : List Char} (h : ∀ c ∈ cs.getLast?, p c = false) :
    trimEnd p cs = cs := by
  rw [trimEnd, dropWhile_of_head (by simpa using h), List.reverse_reverse]

theorem trimmed_trim (cs : List Char) : Trimmed cs (trim cs) := by
  obtain ⟨bs, hsplit, hbs⟩ := exists_trimEnd_append isBlank (cs.dropWhile isBlank)
  constructor
  · refine ⟨cs.takeWhile isBlank, bs, ?_, List.all_eq_true.1 List.all_takeWhile, hbs⟩
    rw [trim, ← hsplit, List.takeWhile_append_dropWhile]
  · intro c hc
    have hhead := List.head?_dropWhile_not isBlank cs
    rw [hsplit, List.head?_append, ← trim, Option.mem_def.1 hc] at hhead
    exact hhead
  · exact not_of_mem_getLast?_trimEnd isBlank _

theorem Trimmed.eq_trim {cs ds : List Char} (h : Trimmed cs ds) : ds = trim cs := by
  obtain ⟨as, bs, rfl, has, hbs⟩ := h.split
  rw [trim, List.dropWhile_append_of_pos has]
  cases ds with
  | nil =>
    have hdrop : (bs ++ []).dropWhile isBlank = [].dropWhile isBlank :=
      List.dropWhile_append_of_pos hbs
    rw [List.append_nil] at hdrop
    rw [List.nil_append, hdrop]
    rfl
  | cons d ds =>
    have hdrop : (d :: ds ++ bs).dropWhile isBlank = d :: ds ++ bs :=
      dropWhile_of_head h.head
    rw [hdrop, trimEnd_append_of_forall hbs, trimEnd_of_last h.last]

theorem trimmed_iff (cs ds : List Char) : Trimmed cs ds ↔ ds = trim cs := by
  constructor
  · exact Trimmed.eq_trim
  · rintro rfl
    exact trimmed_trim cs

end Text

namespace Text.Unsigned

/-- The number that digits denote, the most significant one first. -/
def value (ds : List Char) : Nat := Nat.ofDigitChars 10 ds 0

/-- What is behind the plus sign, if there is one. -/
def afterSign : List Char → List Char
  | '+' :: cs => cs
  | cs => cs

/-- The digits that come first, not counting a plus sign. -/
def leadingRun (cs : List Char) : List Char := (afterSign cs).takeWhile Char.isDigit

/-- One or more digits, behind at most one plus sign. -/
def Spells (cs : List Char) (n : Nat) : Prop :=
  ∃ ds, (cs = ds ∨ cs = '+' :: ds) ∧ ds ≠ [] ∧ (∀ d ∈ ds, d.isDigit = true) ∧ value ds = n

/-- What each fault says of the text. -/
def Fault.Explains : Fault → List Char → Prop
  | .empty, cs => cs = []
  | .tooLarge, cs => Nat.pow 2 64 ≤ value (leadingRun cs)
  | .badDigit, cs => cs ≠ [] ∧ value (leadingRun cs) < Nat.pow 2 64

theorem le_ofDigitChars (n : Nat) (ds : List Char) : n ≤ Nat.ofDigitChars 10 ds n := by
  induction ds generalizing n with
  | nil => exact Nat.le_refl n
  | cons d ds ih =>
    rw [Nat.ofDigitChars_cons]
    have := ih (10 * n + (d.toNat - '0'.toNat))
    omega

/-- The reader stops at the first digit with which the run gets too large, and digits that
come after it would only make it larger: the whole run decides. -/
theorem foldlM_readDigit {n : Nat} (hn : n < bound) (cs : List Char) :
    cs.foldlM readDigit n =
      if bound ≤ Nat.ofDigitChars 10 (cs.takeWhile Char.isDigit) n then .error .tooLarge
      else if cs.all Char.isDigit then .ok (Nat.ofDigitChars 10 cs n)
      else .error .badDigit := by
  induction cs generalizing n with
  | nil =>
    rw [List.takeWhile_nil, Nat.ofDigitChars_nil, if_neg (by omega)]
    rfl
  | cons c cs ih =>
    rw [List.foldlM_cons]
    by_cases hd : c.isDigit
    · have hvalue : ∀ ds, Nat.ofDigitChars 10 (c :: ds) n =
          Nat.ofDigitChars 10 ds (Numeral.extend n c) := fun _ => Nat.ofDigitChars_cons
      rw [List.takeWhile_cons_of_pos hd, hvalue, hvalue, List.all_cons, hd, Bool.true_and]
      by_cases hlt : Numeral.extend n c < bound
      · rw [readDigit, if_pos hd, if_pos hlt]
        exact ih hlt
      · have := le_ofDigitChars (Numeral.extend n c) (cs.takeWhile Char.isDigit)
        rw [readDigit, if_pos hd, if_neg hlt, if_pos (by omega)]
        rfl
    · rw [List.takeWhile_cons_of_neg hd, Nat.ofDigitChars_nil, if_neg (by omega), readDigit,
        if_neg hd, List.all_cons, eq_false_of_ne_true hd]
      rfl

theorem readDigits_eq (ds : List Char) :
    readDigits ds =
      if bound ≤ value (ds.takeWhile Char.isDigit) then .error .tooLarge
      else if ds ≠ [] ∧ ds.all Char.isDigit then .ok (value ds)
      else .error .badDigit := by
  cases ds with
  | nil => rfl
  | cons d ds =>
    have h := foldlM_readDigit (n := 0) (by decide) (d :: ds)
    simpa [readDigits, value] using h

theorem parse_of_ne_nil {cs : List Char} (h : cs ≠ []) : parse cs = readDigits (afterSign cs) := by
  cases cs with
  | nil => exact absurd rfl h
  | cons c cs =>
    by_cases hc : c = '+'
    · subst hc
      rfl
    · simp [parse, afterSign, hc]

theorem afterSign_of_isDigit {ds : List Char} (h : ∀ d ∈ ds, d.isDigit = true) :
    afterSign ds = ds := by
  cases ds with
  | nil => rfl
  | cons d ds =>
    have hd : d ≠ '+' := by
      intro he
      have := h d List.mem_cons_self
      rw [he] at this
      exact absurd this (by decide)
    simp [afterSign, hd]

theorem eq_or_eq_cons_afterSign (cs : List Char) :
    cs = afterSign cs ∨ cs = '+' :: afterSign cs := by
  cases cs with
  | nil => exact .inl rfl
  | cons c cs =>
    by_cases hc : c = '+'
    · subst hc
      exact .inr rfl
    · exact .inl (by simp [afterSign, hc])

theorem spells_iff (cs : List Char) (n : Nat) :
    Spells cs n ↔
      (afterSign cs ≠ [] ∧ (afterSign cs).all Char.isDigit) ∧ value (afterSign cs) = n := by
  constructor
  · rintro ⟨ds, hcs, hne, hds, hv⟩
    have hafter : afterSign cs = ds := by
      rcases hcs with rfl | rfl
      · exact afterSign_of_isDigit hds
      · rfl
    rw [hafter]
    exact ⟨⟨hne, List.all_eq_true.2 hds⟩, hv⟩
  · rintro ⟨⟨hne, hds⟩, hv⟩
    exact ⟨afterSign cs, eq_or_eq_cons_afterSign cs, hne, List.all_eq_true.1 hds, hv⟩

theorem leadingRun_of_all {cs : List Char} (h : (afterSign cs).all Char.isDigit = true) :
    leadingRun cs = afterSign cs := by
  have htake : (afterSign cs ++ []).takeWhile Char.isDigit = afterSign cs ++ [] :=
    List.takeWhile_append_of_pos (List.all_eq_true.1 h)
  simpa [leadingRun] using htake

/-- The reader accepts the numerals of the numbers that fit, and no other text. -/
theorem parse_eq_ok_iff (cs : List Char) (n : Nat) :
    parse cs = .ok n ↔ Spells cs n ∧ n < bound := by
  rw [spells_iff]
  by_cases hcs : cs = []
  · subst hcs
    simp [parse, afterSign]
  · rw [parse_of_ne_nil hcs, readDigits_eq]
    by_cases hall : afterSign cs ≠ [] ∧ (afterSign cs).all Char.isDigit = true
    · have hrun : (afterSign cs).takeWhile Char.isDigit = afterSign cs := leadingRun_of_all hall.2
      rw [hrun, if_pos hall]
      by_cases hlt : bound ≤ value (afterSign cs)
      · rw [if_pos hlt]
        constructor
        · intro h
          cases h
        · rintro ⟨⟨-, rfl⟩, hn⟩
          omega
      · rw [if_neg hlt, Except.ok.injEq]
        constructor
        · rintro rfl
          exact ⟨⟨hall, rfl⟩, by omega⟩
        · rintro ⟨⟨-, hv⟩, -⟩
          exact hv
    · rw [if_neg hall]
      constructor
      · intro h
        split at h <;> cases h
      · rintro ⟨⟨h, -⟩, -⟩
        exact absurd h hall

/-- No two faults explain the same text. -/
theorem Fault.Explains.unique {f g : Fault} {cs : List Char} (hf : f.Explains cs)
    (hg : g.Explains cs) : f = g := by
  have hnil : cs = [] → value (leadingRun cs) < bound := by
    rintro rfl
    decide
  cases f with
  | empty =>
    cases g with
    | empty => rfl
    | tooLarge => exact absurd hg (Nat.not_le.2 (hnil hf))
    | badDigit => exact absurd hf hg.1
  | tooLarge =>
    cases g with
    | empty => exact absurd hf (Nat.not_le.2 (hnil hg))
    | tooLarge => rfl
    | badDigit => exact absurd hf (Nat.not_le.2 hg.2)
  | badDigit =>
    cases g with
    | empty => exact absurd hg hf.1
    | tooLarge => exact absurd hg (Nat.not_le.2 hf.2)
    | badDigit => rfl

theorem explains_of_parse {cs : List Char} {f : Fault} (h : parse cs = .error f) :
    f.Explains cs := by
  by_cases hcs : cs = []
  · subst hcs
    cases h
    rfl
  · rw [parse_of_ne_nil hcs, readDigits_eq] at h
    by_cases hlt : bound ≤ value ((afterSign cs).takeWhile Char.isDigit)
    · rw [if_pos hlt] at h
      cases h
      exact hlt
    · rw [if_neg hlt] at h
      split at h
      · cases h
      · cases h
        exact ⟨hcs, Nat.lt_of_not_le hlt⟩

/-- The overflow comes first if the digits in front of the bad one are enough for it. -/
example : parse "18446744073709551616x".toList = .error .tooLarge ∧
    parse "1844674407370955161x".toList = .error .badDigit := ⟨rfl, rfl⟩

end Text.Unsigned

namespace Policy

def names : Policy → List String
  | .lenient => ["souple", "lenient"]
  | .strict => ["strict"]

/-- The text is a name of the policy, in any ASCII letter case and with blanks around it. -/
def NamedBy (p : Policy) (text : String) : Prop :=
  ∃ ds, Text.Trimmed text.toList ds ∧ String.ofList (ds.map Char.toLower) ∈ p.names

theorem ofName?_eq_some_iff (name : String) (p : Policy) :
    ofName? name = some p ↔ name ∈ p.names := by
  unfold ofName?
  split <;> cases p <;> simp_all [names]

theorem namedBy_iff (p : Policy) (text : String) :
    p.NamedBy text ↔
      ofName? (String.ofList ((Text.trim text.toList).map Char.toLower)) = some p := by
  rw [ofName?_eq_some_iff, NamedBy]
  simp only [Text.trimmed_iff, exists_eq_left]

theorem read_eq_ok_iff (text : String) (p : Policy) : read text = .ok p ↔ p.NamedBy text := by
  rw [namedBy_iff, read]
  split <;> simp_all

theorem read_eq_error {text : String} {e : UnknownPolicy} (h : read text = .error e) :
    e = ⟨text⟩ := by
  unfold read at h
  split at h <;> cases h
  rfl

end Policy

end ExactCalc
