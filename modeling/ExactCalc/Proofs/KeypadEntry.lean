import ExactCalc.Proofs.Acceptance
import ExactCalc.Proofs.PolicyAgreement
import ExactCalc.Window
import Mathlib.Data.List.Chain

/-!
# What the keypad can leave in the entry

An operator key writes spaces around its symbol, and DEL may stop anywhere among them. What
survives is a condition on neighbours: a space never follows a space, and an operator follows
nothing else. A beginning of such a text is such a text, which settles DEL and the trimming
of spaces, and a key adds characters one at a time, each of which may follow the last one. No
policy refuses a character of it, so both read the same tokens.
-/

set_option autoImplicit false

namespace ExactCalc

/-- Whether `d` may come right after `c`. -/
structure MayFollow (c d : Char) : Prop where
  not_both_spaces : d = ' ' → c ≠ ' '
  space_before_op : ∀ o : Op, d = o.symbol → c = ' '

/-- An entry of digits, operators and spaces, none of the latter in front, in which every
character may follow the one before it. -/
structure Tidy (cs : List Char) : Prop where
  chars : ∀ c ∈ cs, Scan.isTokenChar c = true ∨ c = ' '
  head : cs.head? ≠ some ' '
  chain : cs.IsChain MayFollow

namespace Tidy

theorem nil : Tidy [] := ⟨by simp, by simp, .nil⟩

theorem of_prefix {as cs : List Char} (h : Tidy cs) (hp : as <+: cs) : Tidy as := by
  constructor
  · intro c hc
    exact h.chars c (hp.subset hc)
  · intro hs
    obtain ⟨bs, rfl⟩ := hp
    exact h.head (by rw [List.head?_append, hs, Option.some_or])
  · exact h.chain.prefix hp

theorem snoc {cs : List Char} (h : Tidy cs) {c : Char}
    (hc : Scan.isTokenChar c = true ∨ c = ' ') (hfirst : cs = [] → c ≠ ' ')
    (hlast : ∀ d ∈ cs.getLast?, MayFollow d c) : Tidy (cs ++ [c]) := by
  constructor
  · intro d hd
    rcases List.mem_append.1 hd with hd | hd
    · exact h.chars d hd
    · rw [List.mem_singleton.1 hd]
      exact hc
  · cases cs with
    | nil => simpa using hfirst rfl
    | cons d ds => exact h.head
  · apply h.chain.append (.singleton c)
    simpa using hlast

theorem snoc_digit {cs : List Char} (h : Tidy cs) {c : Char} (hc : c.isDigit = true) :
    Tidy (cs ++ [c]) := by
  have hspace : c ≠ ' ' := by
    intro he
    rw [he] at hc
    exact absurd hc (by decide)
  apply h.snoc (.inl (by simp [Scan.isTokenChar, hc])) (fun _ => hspace)
  intro d _
  constructor
  · intro he
    exact absurd he hspace
  · intro o ho
    rw [ho, o.symbol_not_digit] at hc
    cases hc

theorem snoc_space {cs : List Char} (h : Tidy cs) (hne : cs ≠ [])
    (hlast : ∀ d ∈ cs.getLast?, d ≠ ' ') : Tidy (cs ++ [' ']) := by
  apply h.snoc (.inr rfl) (fun he => absurd he hne)
  intro d hd
  constructor
  · intro _
    exact hlast d hd
  · intro o ho
    cases o <;> exact absurd ho (by decide)

theorem snoc_op {cs : List Char} (h : Tidy cs) (hlast : ∀ d ∈ cs.getLast?, d = ' ') (o : Op) :
    Tidy (cs ++ [o.symbol]) := by
  have hspace : o.symbol ≠ ' ' := by cases o <;> decide
  apply h.snoc (.inl (by cases o <;> decide)) (fun _ => hspace)
  intro d hd
  constructor
  · intro he
    exact absurd he hspace
  · intro _ _
    exact hlast d hd

/-- A key press keeps an entry tidy, wherever it was cut before. -/
theorem press {entry : List Char} (h : Tidy entry) (k : Key) : Tidy (k.press entry) := by
  cases k with
  | digit d => exact h.snoc_digit (by simp [Nat.isDigit_digitChar])
  | op o =>
    obtain ⟨spaces, hentry, -⟩ := Text.exists_trimEnd_append (· = ' ') entry
    have hkept : Tidy (Text.trimEnd (· = ' ') entry) :=
      h.of_prefix ⟨spaces, hentry.symm⟩
    have hlast : ∀ d ∈ (Text.trimEnd (· = ' ') entry).getLast?, d ≠ ' ' := by
      intro d hd
      simpa using Text.not_of_mem_getLast?_trimEnd (· = ' ') entry d hd
    have hafter : ∀ cs : List Char, Tidy (cs ++ [o.symbol]) → Tidy (cs ++ [o.symbol, ' ']) := by
      intro cs hcs
      rw [← List.singleton_append, ← List.append_assoc]
      apply hcs.snoc_space (by simp)
      cases o <;> simp [Op.symbol]
    by_cases hnil : Text.trimEnd (· = ' ') entry = []
    · simp only [Key.press, hnil, if_true, List.append_nil]
      exact hafter [] (nil.snoc_op (by simp) o)
    · simp only [Key.press, if_neg hnil]
      exact hafter _ ((hkept.snoc_space hnil hlast).snoc_op (by simp) o)

theorem not_two_spaces {cs : List Char} (h : Tidy cs) (i : Nat) (hi : cs[i]? = some ' ') :
    cs[i + 1]? ≠ some ' ' := by
  intro hj
  obtain ⟨_, hc⟩ := List.getElem?_eq_some_iff.1 hi
  obtain ⟨hlt, hd⟩ := List.getElem?_eq_some_iff.1 hj
  exact (h.chain.getElem i hlt).not_both_spaces hd hc

theorem space_before {cs : List Char} (h : Tidy cs) (i : Nat) (o : Op)
    (hj : cs[i + 1]? = some o.symbol) : cs[i]? = some ' ' := by
  obtain ⟨hlt, hd⟩ := List.getElem?_eq_some_iff.1 hj
  rw [List.getElem?_eq_getElem (by omega)]
  exact congrArg some ((h.chain.getElem i hlt).space_before_op o hd)

theorem accepted {cs : List Char} (h : Tidy cs) (p : Policy) : ∀ c ∈ cs, p.accepts c = true := by
  intro c hc
  rcases h.chars c hc with ht | rfl
  · rw [Scan.isTokenChar_eq] at ht
    rw [Policy.accepts, ht, Bool.true_or]
  · exact p.accepts_space

end Tidy

theorem evaluate_ne_invalidToken {s : Settings} {line : String} {ts : List Token}
    (h : scan s.policy line = .ok ts) (c : Char) (k : Nat) :
    evaluate s line ≠ .error (.invalidToken c k) := by
  rw [evaluate_of_scan h]
  rcases reduce_trichotomy ts with he | ⟨-, v, he⟩ | ⟨-, why, he⟩ <;> simp [he, Except.map]

/-- Whether an action leaves it to the keypad to write the entry: it brings no text along. -/
def Action.isTextless : Action → Bool
  | .setEntry _ => false
  | .key k => !k.isText
  | .point _ => true

theorem stable_tidy : Calculator.Stable fun c => Tidy c.entry.toList where
  withFocus _ h := h
  setStrict _ h := h
  setDigits _ h := h
  click := by
    intro c b h
    cases b with
    | key k =>
      show Tidy (String.ofList (k.press c.entry.toList)).toList
      rw [String.toList_ofList]
      exact h.press k
    | delete =>
      show Tidy (String.ofList c.entry.toList.dropLast).toList
      rw [String.toList_ofList]
      exact h.of_prefix (List.dropLast_prefix _)
    | clearEntry => exact Tidy.nil
    | reset => exact Tidy.nil
    | clearResults => exact h
    | panel => exact h
    | equals =>
      show Tidy c.evaluate.entry.toList
      rwa [Calculator.evaluate_entry]

theorem Action.write_tidy (field : EntryField) {a : Action} (ha : a.isTextless = true)
    (focused : Bool) (c : Calculator) (h : Tidy c.entry.toList) :
    Tidy (a.write field focused c).entry.toList := by
  cases a with
  | setEntry text => cases ha
  | point p => exact h
  | key k =>
    show Tidy (field.react k focused c.entry).2.toList
    rwa [field.react_text (by simpa [isTextless] using ha)]

namespace Window

/-- From an empty entry, and as long as no text is set or typed, the entry consists of digits,
operators and single spaces, none of these in front, and an operator that is not the first
character has one right before it. Both policies read the same tokens in it: evaluating it
meets no invalid token under any settings, and all settings give the same outcome. -/
theorem textless_entry (field : EntryField) (w : Window) (as : List Action)
    (hw : w.calculator.entry = "") (has : ∀ a ∈ as, a.isTextless = true) :
    (∀ c ∈ (w.run field as).calculator.entry.toList,
        c.isDigit = true ∨ c ∈ ['+', '-', '*', '/'] ∨ c = ' ') ∧
      (w.run field as).calculator.entry.toList.head? ≠ some ' ' ∧
      (∀ i, (w.run field as).calculator.entry.toList[i]? = some ' ' →
        (w.run field as).calculator.entry.toList[i + 1]? ≠ some ' ') ∧
      (∀ i (o : Op), (w.run field as).calculator.entry.toList[i + 1]? = some o.symbol →
        (w.run field as).calculator.entry.toList[i]? = some ' ') ∧
      (∃ ts, ∀ p, scan p (w.run field as).calculator.entry = .ok ts) ∧
      (∀ s c k, evaluate s (w.run field as).calculator.entry ≠ .error (.invalidToken c k)) ∧
      ∀ s t : Settings, evaluate t (w.run field as).calculator.entry =
        (evaluate s (w.run field as).calculator.entry).map fun e => { e with settings := t } := by
  have hstart : Tidy w.calculator.entry.toList := by
    rw [hw]
    exact Tidy.nil
  have h : Tidy (w.run field as).calculator.entry.toList :=
    run_keeps field (P := fun v => Tidy v.calculator.entry.toList)
      (fun _ _ ha => act_keeps field stable_tidy (Action.write_tidy field ha)) hstart has
  have hscan : ∀ p, scan p (w.run field as).calculator.entry = .ok (Scan.readAll {} _).result :=
    fun p => scan_of_accepts (h.accepted p)
  refine ⟨fun c hc => ?_, h.head, h.not_two_spaces, h.space_before, ⟨_, hscan⟩,
    fun s c k => ?_, fun s t => ?_⟩
  · have := h.chars c hc
    simpa [Scan.isTokenChar, or_assoc] using this
  · exact evaluate_ne_invalidToken (hscan s.policy) c k
  · exact evaluate_of_scan_eq ((hscan s.policy).trans (hscan t.policy).symm)

/-- DEL takes both spaces around the `+` away again, one of them comes back with the `*`. -/
theorem textless_entry_cut :
    ∃ as, as = [.click (.key (.digit 7)), .click (.key (.op .add)), .click .delete,
        .click (.key (.digit 2)), .point .toggleStrict, .click .delete, .click .delete,
        .click .delete, .click (.key (.op .mul)), .click (.key (.digit 3)),
        .point (.setDigits 4), .click .equals] ∧
      ((ofSettings .standard).run .appending as).calculator.entry = "7 * 3" ∧
      evaluate .strict "7 * 3" =
        (evaluate .standard "7 * 3").map fun e => { e with settings := .strict } := by
  obtain ⟨as, has⟩ : ∃ as : List Action, as = [.click (.key (.digit 7)),
    .click (.key (.op .add)), .click .delete, .click (.key (.digit 2)), .point .toggleStrict,
    .click .delete, .click .delete, .click .delete, .click (.key (.op .mul)),
    .click (.key (.digit 3)), .point (.setDigits 4), .click .equals] := ⟨_, rfl⟩
  have hentry : ((ofSettings .standard).run .appending as).calculator.entry = "7 * 3" := by
    subst has
    decide +kernel
  have htextless : ∀ a ∈ as, a.isTextless = true := by
    subst has
    exact List.all_eq_true.1 (by decide)
  obtain ⟨-, -, -, -, -, -, h⟩ := textless_entry .appending (ofSettings .standard) as rfl htextless
  rw [hentry] at h
  exact ⟨as, has, hentry, h .standard .strict⟩

end Window

end ExactCalc
