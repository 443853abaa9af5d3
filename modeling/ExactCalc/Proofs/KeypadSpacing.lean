import ExactCalc.Proofs.Scanning
import ExactCalc.Window

/-!
# Keypad spacing does not matter

The keypad trims spaces and puts in others around an operator, so the entry is not the
text of the keys that were pressed. To the scanner it is: up to positions, which shift with
the spaces, each press leaves the scan of the entry as the key alone would have left it. A
refused character stands in front of everything the keypad touches, so its position is kept.
-/

set_option autoImplicit false

namespace ExactCalc

namespace Scan

/-- A scan without its position, on which its tokens do not depend. -/
def unplaced (s : Scan) : Scan := { s with position := 0 }

theorem unplaced_read (s : Scan) (c : Char) :
    (s.unplaced.read c).unplaced = (s.read c).unplaced := by
  unfold read
  by_cases hd : c.isDigit
  · simp [hd, unplaced]
  · cases Op.ofChar? c <;> simp [hd, unplaced, closed]

theorem unplaced_readAll (s : Scan) (cs : List Char) :
    (s.unplaced.readAll cs).unplaced = (s.readAll cs).unplaced := by
  induction cs generalizing s with
  | nil => rfl
  | cons c cs ih =>
    calc (s.unplaced.readAll (c :: cs)).unplaced
        = ((s.unplaced.read c).unplaced.readAll cs).unplaced := (ih _).symm
      _ = ((s.read c).unplaced.readAll cs).unplaced := by rw [unplaced_read]
      _ = (s.readAll (c :: cs)).unplaced := ih _

theorem closed_readAll_spaces (s : Scan) {cs : List Char} (h : ∀ c ∈ cs, c = ' ') :
    (s.readAll cs).closed = s.closed := by
  induction cs generalizing s with
  | nil => rfl
  | cons c cs ih =>
    obtain ⟨rfl, hcs⟩ := List.forall_mem_cons.1 h
    exact ih (s.read ' ') hcs

theorem unplaced_readAll_spaces (k : Nat) (ts : List Token) {cs : List Char}
    (h : ∀ c ∈ cs, c = ' ') : (readAll ⟨k, ts, none⟩ cs).unplaced = ⟨0, ts, none⟩ := by
  induction cs generalizing k with
  | nil => rfl
  | cons c cs ih =>
    obtain ⟨rfl, hcs⟩ := List.forall_mem_cons.1 h
    exact ih (k + 1) hcs

/-- The spaces on either side of an operator are not seen behind it. -/
theorem unplaced_readAll_spaced (s : Scan) {cs ds : List Char} (hcs : ∀ c ∈ cs, c = ' ')
    (hds : ∀ d ∈ ds, d = ' ') (o : Op) :
    (s.readAll (cs ++ o.symbol :: ds)).unplaced = ⟨0, .op o :: s.closed, none⟩ := by
  rw [readAll_append, readAll_cons, read_symbol, closed_readAll_spaces s hcs,
    unplaced_readAll_spaces _ _ hds]

/-- What a policy makes of a text: a refusal, or a scan up to its position. -/
def outline (p : Policy) (cs : List Char) : Except EvalError Scan :=
  (advance p {} cs).map unplaced

theorem outline_append (p : Policy) (as : List Char) {cs : List Char}
    (h : ∀ c ∈ cs, p.accepts c = true) :
    outline p (as ++ cs) = (outline p as).map fun s => (s.readAll cs).unplaced := by
  rw [outline, outline, advance_append]
  cases advance p {} as with
  | error e => rfl
  | ok s =>
    simp only [Except.bind, Except.map, advance_of_accepts h]
    rw [unplaced_readAll]

theorem outline_append_congr {p : Policy} {as bs cs : List Char}
    (hab : outline p as = outline p bs) (h : ∀ c ∈ cs, p.accepts c = true) :
    outline p (as ++ cs) = outline p (bs ++ cs) := by
  rw [outline_append p as h, outline_append p bs h, hab]

theorem outline_spaced (p : Policy) (as : List Char) {cs ds : List Char}
    (hcs : ∀ c ∈ cs, c = ' ') (hds : ∀ d ∈ ds, d = ' ') (o : Op) :
    outline p (as ++ (cs ++ o.symbol :: ds)) =
      (outline p as).map fun s => ⟨0, .op o :: s.closed, none⟩ := by
  have haccepts : ∀ c ∈ cs ++ o.symbol :: ds, p.accepts c = true := by
    intro c hc
    rcases List.mem_append.1 hc with hc | hc
    · rw [hcs c hc]
      exact p.accepts_space
    · rcases List.mem_cons.1 hc with rfl | hc
      · exact p.accepts_symbol o
      · rw [hds c hc]
        exact p.accepts_space
  rw [outline_append p as haccepts]
  simp only [unplaced_readAll_spaced _ hcs hds]

theorem scan_eq_of_outline {p : Policy} {line line' : String}
    (h : outline p line.toList = outline p line'.toList) : scan p line = scan p line' := by
  have hscan : ∀ l : String, scan p l = (outline p l.toList).map result := by
    intro l
    rw [scan, outline]
    cases advance p {} l.toList <;> rfl
  rw [hscan, hscan, h]

end Scan

open Scan

namespace Key

theorem accepted (p : Policy) (k : Key) : p.accepts k.symbol = true := by
  cases k with
  | digit d =>
    apply p.accepts_digit
    simp [symbol, Nat.isDigit_digitChar]
  | op o => exact p.accepts_symbol o

/-- A press and its bare symbol come to the same, whatever the entry. -/
theorem outline_press (p : Policy) (entry : List Char) (k : Key) :
    outline p (k.press entry) = outline p (entry ++ [k.symbol]) := by
  cases k with
  | digit d => rfl
  | op o =>
    obtain ⟨spaces, hentry, hspaces⟩ := Text.exists_trimEnd_append (· = ' ') entry
    have hpress : ∃ gap, (∀ c ∈ gap, c = ' ') ∧
        (Key.op o).press entry = Text.trimEnd (· = ' ') entry ++ (gap ++ o.symbol :: [' ']) := by
      by_cases hkept : Text.trimEnd (· = ' ') entry = []
      · exact ⟨[], by simp, by simp [press, hkept]⟩
      · exact ⟨[' '], by simp, by simp [press, hkept]⟩
    obtain ⟨gap, hgap, hpress⟩ := hpress
    calc outline p ((Key.op o).press entry)
        = (outline p (Text.trimEnd (· = ' ') entry)).map fun s => ⟨0, .op o :: s.closed, none⟩ := by
          rw [hpress, outline_spaced p _ hgap (by simp)]
      _ = outline p (Text.trimEnd (· = ' ') entry ++ (spaces ++ o.symbol :: [])) := by
          rw [outline_spaced p _ (by simpa using hspaces) (by simp)]
      _ = outline p (entry ++ [o.symbol]) := by
          rw [← List.append_assoc, ← hentry]

theorem outline_press_all (p : Policy) (entry : List Char) (ks : List Key) :
    outline p (ks.foldl press entry) = outline p (entry ++ ks.map symbol) := by
  induction ks generalizing entry with
  | nil => simp
  | cons k ks ih =>
    have hks : ∀ c ∈ ks.map symbol, p.accepts c = true := by
      intro c hc
      obtain ⟨k', -, rfl⟩ := List.mem_map.1 hc
      exact accepted p k'
    calc outline p (ks.foldl press (press entry k))
        = outline p (press entry k ++ ks.map symbol) := ih _
      _ = outline p (entry ++ [k.symbol] ++ ks.map symbol) :=
          outline_append_congr (outline_press p entry k) hks
      _ = outline p (entry ++ (k :: ks).map symbol) := by simp

theorem toList_join_text (ks : List Key) :
    (String.join (ks.map text)).toList = ks.map symbol := by
  rw [String.toList_join]
  induction ks with
  | nil => rfl
  | cons k ks ih => simpa [text] using ih

end Key

namespace Window

section Clicks

variable (field : EntryField)

/-- Key presses by clicks on the pad, one after the other. -/
def clickKeys (w : Window) (ks : List Key) : Window :=
  ks.foldl (fun w k => w.act field (.click (.key k))) w

theorem clickKeys_entry (w : Window) (ks : List Key) :
    (w.clickKeys field ks).calculator.entry =
      String.ofList (ks.foldl Key.press w.calculator.entry.toList) := by
  induction ks generalizing w with
  | nil => simp [clickKeys]
  | cons k ks ih =>
    have hk : (w.act field (.click (.key k))).calculator.entry =
        String.ofList (k.press w.calculator.entry.toList) := by
      rw [act_eq, frame, update_none]
      rfl
    change ((w.act field (.click (.key k))).clickKeys field ks).calculator.entry = _
    rw [ih, hk, String.toList_ofList, List.foldl_cons]

/-- Whatever the entry was and whichever keys are clicked, the entry scans like the text in
front followed by the bare texts of the keys, refusals and their positions included, and so
it evaluates to the same value with the same steps, or fails the same way. -/
theorem clickKeys_scans_as_typed (w : Window) (ks : List Key) :
    (∀ p, scan p (w.clickKeys field ks).calculator.entry =
        scan p (w.calculator.entry ++ String.join (ks.map Key.text))) ∧
      ∀ s, attempt s (w.clickKeys field ks).calculator.entry =
        attempt s (w.calculator.entry ++ String.join (ks.map Key.text)) := by
  have hscan : ∀ p, scan p (w.clickKeys field ks).calculator.entry =
      scan p (w.calculator.entry ++ String.join (ks.map Key.text)) := by
    intro p
    apply scan_eq_of_outline
    rw [clickKeys_entry, String.toList_ofList, Key.outline_press_all, String.toList_append,
      Key.toList_join_text]
  exact ⟨hscan, fun s => attempt_congr (hscan s.policy)⟩

end Clicks

end Window

end ExactCalc
