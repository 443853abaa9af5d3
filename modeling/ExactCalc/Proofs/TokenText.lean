import ExactCalc.Evaluation
import ExactCalc.Proofs.Scanning
import Mathlib.Control.Monad.Basic

/-!
# The text of a token list reads back

Tokens are written with one space between neighbours, a natural literal as its decimal
numeral. Scanning such a text gives back the tokens under any policy: the digits of a
numeral are one run and spell its value, and a space parts it from the next. Scanning
itself yields no other literals, so the text of whatever was scanned can be entered again.
-/

set_option autoImplicit false

namespace ExactCalc

namespace Token

/-- The tokens that a line can hold: operators and natural literals. -/
def Typable : Token → Prop
  | .num r => ∃ n : Nat, r = n
  | .op _ => True

theorem text_natCast (n : Nat) : (Token.num n).text = Numeral.ofNat n := by
  simp [text, Numeral.ofRat, Numeral.ofInt]

theorem toList_listText (t u : Token) (us : List Token) :
    (listText (t :: u :: us)).toList = t.text.toList ++ [' '] ++ (listText (u :: us)).toList := by
  simp [listText, String.intercalate_cons_cons]

end Token

open Token

namespace Numeral

/-- The digits of a numeral spell the number it was made from. -/
theorem foldl_extend_toDigits (n : Nat) : (Nat.toDigits 10 n).foldl extend 0 = n := by
  rw [foldl_extend, Nat.ofDigitChars_ten_toDigits]

end Numeral

namespace Policy

theorem accepts_text (p : Policy) {t : Token} (ht : t.Typable) :
    ∀ c ∈ t.text.toList, p.accepts c = true := by
  cases t with
  | num r =>
    obtain ⟨n, rfl⟩ := ht
    rw [text_natCast, Numeral.toList_ofNat]
    intro c hc
    exact p.accepts_digit (Numeral.isDigit_of_mem_toDigits hc)
  | op o => simp [Token.text, Op.text, p.accepts_symbol]

theorem accepts_listText (p : Policy) {ts : List Token} (h : ∀ t ∈ ts, t.Typable) :
    ∀ c ∈ (listText ts).toList, p.accepts c = true := by
  induction ts with
  | nil => simp [listText]
  | cons t ts ih =>
    obtain ⟨ht, hts⟩ := List.forall_mem_cons.1 h
    cases ts with
    | nil => simpa [listText] using p.accepts_text ht
    | cons u us =>
      rw [toList_listText]
      simp only [List.mem_append, List.mem_singleton]
      rintro c ((hc | rfl) | hc)
      · exact p.accepts_text ht c hc
      · exact p.accepts_space
      · exact ih hts c hc

end Policy

namespace Scan

/-- Digits lengthen an open run and do nothing else. -/
theorem readAll_digits (k : Nat) (ts : List Token) (n : Nat) {cs : List Char}
    (h : ∀ c ∈ cs, c.isDigit = true) :
    readAll ⟨k, ts, some n⟩ cs = ⟨k + cs.length, ts, some (cs.foldl Numeral.extend n)⟩ := by
  induction cs generalizing k n with
  | nil => rfl
  | cons c cs ih =>
    obtain ⟨hc, hcs⟩ := List.forall_mem_cons.1 h
    have hrest := ih (k + 1) (Numeral.extend n c) hcs
    rw [Nat.add_assoc, Nat.add_comm 1] at hrest
    rw [readAll_cons, read_digit _ hc]
    exact hrest

/-- Digits lengthen the run, or start one where none is open. -/
theorem readAll_run (s : Scan) {ds : List Char} (hne : ds ≠ []) (h : ∀ d ∈ ds, d.isDigit = true) :
    s.readAll ds =
      ⟨s.position + ds.length, s.tokens, some (ds.foldl Numeral.extend (s.run.getD 0))⟩ := by
  cases ds with
  | nil => exact absurd rfl hne
  | cons d ds =>
    obtain ⟨hd, hds⟩ := List.forall_mem_cons.1 h
    rw [readAll_cons, read_digit s hd, readAll_digits _ _ _ hds, List.length_cons,
      Nat.add_assoc, Nat.add_comm 1]
    rfl

theorem closed_of_run_none {s : Scan} (h : s.run = none) : s.closed = s.tokens := by
  rw [closed, h]

theorem closed_readAll_text {s : Scan} {t : Token} (hs : s.run = none) (ht : t.Typable) :
    (s.readAll t.text.toList).closed = t :: s.tokens := by
  cases t with
  | num r =>
    obtain ⟨n, rfl⟩ := ht
    have hdigits : ∀ c ∈ Nat.toDigits 10 n, c.isDigit = true :=
      fun c hc => Numeral.isDigit_of_mem_toDigits hc
    rw [text_natCast, Numeral.toList_ofNat, readAll_run s Nat.toDigits_ne_nil hdigits, hs,
      Option.getD_none, Numeral.foldl_extend_toDigits]
    rfl
  | op o =>
    have htext : (Token.op o).text.toList = [o.symbol] := by simp [Token.text, Op.text]
    rw [htext, readAll_cons, read_symbol, closed_of_run_none hs]
    rfl

/-- The tokens written are added to those read before, latest first. -/
theorem closed_readAll_listText {s : Scan} {ts : List Token} (hs : s.run = none)
    (h : ∀ t ∈ ts, t.Typable) :
    (s.readAll (listText ts).toList).closed = ts.reverse ++ s.tokens := by
  induction ts generalizing s with
  | nil => exact closed_of_run_none hs
  | cons t ts ih =>
    obtain ⟨ht, hts⟩ := List.forall_mem_cons.1 h
    cases ts with
    | nil => simpa [listText] using closed_readAll_text hs ht
    | cons u us =>
      -- the space after `t` closes the run, so the rest is read as if from the start
      have hspace : s.readAll (t.text.toList ++ [' ']) =
          ⟨(s.readAll t.text.toList).position + 1, t :: s.tokens, none⟩ := by
        rw [readAll_append, readAll_cons, read_space, closed_readAll_text hs ht]
        rfl
      rw [toList_listText, readAll_append, hspace, ih rfl hts]
      simp

theorem mem_closed_of_mem_tokens {s : Scan} {t : Token} (h : t ∈ s.tokens) : t ∈ s.closed := by
  unfold closed
  cases s.run with
  | none => exact h
  | some n => exact List.mem_cons_of_mem _ h

theorem typable_read {s : Scan} (h : ∀ t ∈ s.closed, t.Typable) (c : Char) :
    ∀ t ∈ (s.read c).closed, t.Typable := by
  by_cases hd : c.isDigit
  · rw [read_digit s hd]
    refine List.forall_mem_cons.2 ⟨⟨_, rfl⟩, ?_⟩
    intro t ht
    exact h t (mem_closed_of_mem_tokens ht)
  · unfold read
    rw [if_neg hd]
    cases Op.ofChar? c with
    | some o => exact List.forall_mem_cons.2 ⟨trivial, h⟩
    | none => exact h

theorem typable_readAll {s : Scan} (h : ∀ t ∈ s.closed, t.Typable) (cs : List Char) :
    ∀ t ∈ (s.readAll cs).closed, t.Typable := by
  induction cs generalizing s with
  | nil => exact h
  | cons c cs ih => exact ih (typable_read h c)

end Scan

theorem scan_typable {p : Policy} {line : String} {ts : List Token} (h : scan p line = .ok ts) :
    ∀ t ∈ ts, t.Typable := by
  obtain ⟨-, rfl⟩ := (scan_eq_ok_iff p line ts).1 h
  intro t ht
  refine Scan.typable_readAll (s := {}) ?_ line.toList t (List.mem_reverse.1 ht)
  simp [Scan.closed]

theorem scan_listText (p : Policy) {ts : List Token} (h : ∀ t ∈ ts, t.Typable) :
    scan p (listText ts) = .ok ts := by
  rw [scan_of_accepts (p.accepts_listText h), Scan.result,
    Scan.closed_readAll_listText rfl h]
  simp

/-- Operators and natural literals of any size come back from their text under either
policy. Whatever was scanned is made of these, so its text gives it back too, and the
tokens shown with an evaluation can be evaluated again, under any settings, with the same
value, tokens and steps. -/
theorem token_text_reads_back :
    (∀ (p : Policy) (ts : List Token), (∀ t ∈ ts, t.Typable) → scan p (listText ts) = .ok ts) ∧
      (∀ (p q : Policy) (line : String) (ts : List Token),
        scan p line = .ok ts → scan q (listText ts) = .ok ts) ∧
      ∀ (s t : Settings) (line : String) (e : Evaluation), evaluate s line = .ok e →
        ∃ e', evaluate t e.tokensText = .ok e' ∧ e'.value = e.value ∧
          e'.tokensText = e.tokensText ∧ e'.steps = e.steps ∧ e'.stepLines = e.stepLines := by
  refine ⟨fun p ts h => scan_listText p h, fun p q line ts h => scan_listText q (scan_typable h),
    fun s t line e h => ?_⟩
  obtain ⟨hscan, -⟩ := evaluate_ok h
  have hback : scan s.policy line = scan t.policy e.tokensText := by
    rw [hscan, Evaluation.tokensText, scan_listText t.policy (scan_typable hscan)]
  refine ⟨{ e with settings := t }, ?_, rfl, rfl, rfl, rfl⟩
  rw [evaluate_of_scan_eq hback, h]
  rfl

/-- A literal beyond any machine word comes back as it is, beside another literal. Of the
line, the letter and the leading zeros are gone, and the value is the same. -/
theorem token_text_reads_back_half :
    scan .strict (listText [.num 0, .num 1000000000000000000000, .op .sub]) =
        .ok [.num 0, .num 1000000000000000000000, .op .sub] ∧
      scan .lenient "007x/14" = .ok [.num 7, .op .div, .num 14] ∧
      scan .strict "7 / 14" = .ok [.num 7, .op .div, .num 14] ∧
      ∃ e', evaluate .strict "7 / 14" = .ok e' ∧ e'.value = 1 / 2 := by
  obtain ⟨hlist, hline, heval⟩ := token_text_reads_back
  have hscan : scan .lenient "007x/14" = .ok [.num 7, .op .div, .num 14] := by decide +kernel
  have he : evaluate .standard "007x/14" =
      .ok ⟨.standard, [.num 7, .op .div, .num 14], [⟨.div, 7, 14, 1 / 2⟩], 1 / 2⟩ := by
    decide +kernel
  have htext : listText [.num 7, .op .div, .num 14] = "7 / 14" := by decide +kernel
  have hbig : ∀ t ∈ [Token.num 0, .num 1000000000000000000000, .op .sub], t.Typable := by
    simp only [List.forall_mem_cons]
    exact ⟨⟨0, rfl⟩, ⟨1000000000000000000000, rfl⟩, trivial, by simp⟩
  have hback := hline .lenient .strict "007x/14" _ hscan
  obtain ⟨e', he', hv, -⟩ := heval .standard .strict "007x/14" _ he
  rw [htext] at hback
  rw [Evaluation.tokensText, htext] at he'
  exact ⟨hlist .strict _ hbig, hscan, hback, e', he', hv⟩

end ExactCalc
