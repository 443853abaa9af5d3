import ExactCalc.Proofs.DisplayHistory
import ExactCalc.Proofs.Unambiguous
import ExactCalc.Window

/-!
# The Enter key in the entry field

Three ways lead to an evaluation: a click on `=`, Ctrl+Enter, and Enter, which is meant to do
the same while the entry has the focus. A single-line field gives its focus up on Enter before
anything else looks, so Enter evaluates only in a frame that grants the focus again, and such
a frame is over before the next action. In every window that can be reached, Enter takes the
focus away and leaves the rest alone. It comes to the same as `=` only when there is nothing
left to do: the outcome of the entry is on display already.
-/

set_option autoImplicit false

namespace ExactCalc

theorem Evaluation.value_eq_of_tokensText {s t : Settings} {line line' : String}
    {e f : Evaluation} (he : evaluate s line = .ok e) (hf : evaluate t line' = .ok f)
    (h : e.tokensText = f.tokensText) : e.value = f.value := by
  have htokens : e.tokens = f.tokens := injective_of_read Token.readList?_listText h
  obtain ⟨-, hvalue, -⟩ := evaluate_ok he
  obtain ⟨-, hvalue', -⟩ := evaluate_ok hf
  rw [htokens, hvalue'] at hvalue
  exact (Except.ok.inj hvalue).symm

/-- Only a derivation has tokens to tell. -/
theorem Display.exists_derivation {d : Display} (h : d.working.tokens ≠ "") :
    ∃ e, d = .derivation e := by
  cases d with
  | derivation e => exact ⟨e, rfl⟩
  | blank => exact absurd rfl h
  | failure e => exact absurd rfl h

theorem Session.Records.of_derivation {s : Session} {ts : List Trial} {e : Evaluation}
    (h : s.Records ts) (hd : s.display = .derivation e) :
    s.lastValue = some e.value ∧ ∃ t : Trial, t.outcome = .ok e := by
  have hshown := h.display
  rw [hd] at hshown
  cases ts with
  | nil => cases hshown
  | cons t older =>
    cases ht : t.outcome with
    | error f => simp [ht, Display.ofOutcome] at hshown
    | ok f =>
      obtain rfl : e = f := by simpa [ht, Display.ofOutcome] using hshown
      exact ⟨by simp [h.lastValue, Trial.value?, ht, Except.toOption], t, ht⟩

namespace Calculator

/-- Everything on display beside the exact value is what `d` has to say. -/
structure Tells (c : Calculator) (d : Display) : Prop where
  reading : c.reading = d.reading
  refusal : c.refusal = d.refusal
  working : c.working = d.working

theorem evaluate_tells (c : Calculator) :
    c.evaluate.Tells (.ofOutcome (ExactCalc.evaluate c.settings c.entry)) := by
  unfold evaluate
  cases ExactCalc.evaluate c.settings c.entry <;> exact ⟨rfl, rfl, rfl⟩

/-- A derivation on display has its own exact value beside it. -/
theorem Shows.exact_of_tells {c : Calculator} {ts : List Trial} {s : Settings} {line : String}
    {e : Evaluation} (h : c.Shows ts) (he : ExactCalc.evaluate s line = .ok e)
    (ht : c.Tells (.derivation e)) : c.exact = e.exact := by
  obtain ⟨r, rfl, hr⟩ := h
  have htokens : r.display.working.tokens = e.tokensText := congrArg Working.tokens ht.working
  have hne : r.display.working.tokens ≠ "" := htokens ▸ Evaluation.tokensText_ne_empty he
  obtain ⟨f, hd⟩ := Display.exists_derivation hne
  obtain ⟨hv, t, hf⟩ := hr.of_derivation hd
  rw [hd] at htokens
  rw [Session.calculator, hv, Evaluation.exact, ← Evaluation.value_eq_of_tokensText hf he htokens]
  rfl

/-- To evaluate again what is on display changes nothing on it, and only that changes nothing. -/
theorem Shows.evaluate_eq_askFocus_iff {c : Calculator} {ts : List Trial} (h : c.Shows ts) :
    c.evaluate = c.askFocus ↔
      c.Tells (.ofOutcome (ExactCalc.evaluate c.settings c.entry)) := by
  constructor
  · intro he
    have ht := c.evaluate_tells
    rw [he] at ht
    exact ⟨ht.reading, ht.refusal, ht.working⟩
  · intro ht
    cases he : ExactCalc.evaluate c.settings c.entry with
    | error f =>
      rw [he] at ht
      rw [evaluate, he, askFocus]
      simp [ht.reading, ht.refusal, ht.working, Display.ofOutcome, Display.reading,
        Display.refusal, Display.working]
    | ok e =>
      rw [he] at ht
      rw [evaluate, he, askFocus]
      simp [h.exact_of_tells he ht, ht.reading, ht.refusal, ht.working, Display.ofOutcome,
        Display.reading, Display.refusal, Display.working]

theorem askFocus_evaluate (c : Calculator) : c.evaluate.askFocus = c.evaluate := by
  unfold evaluate
  cases ExactCalc.evaluate c.settings c.entry <;> rfl

/-- Some trials lead to what is on display. -/
def IsShown (c : Calculator) : Prop := ∃ ts, c.Shows ts

theorem IsShown.perform {c : Calculator} (h : c.IsShown) (cmd : Command) :
    (c.perform cmd).IsShown := by
  obtain ⟨ts, hts⟩ := h
  exact ⟨_, hts.perform cmd⟩

theorem IsShown.withFocus {c : Calculator} (h : c.IsShown) (b : Bool) :
    { c with wantsFocus := b }.IsShown := by
  obtain ⟨ts, s, rfl, hs⟩ := h
  exact ⟨ts, { s with wantsFocus := b }, rfl, hs.lastValue, hs.display⟩

theorem stable_isShown : Stable IsShown where
  withFocus b h := h.withFocus b
  setStrict strict h := h.perform (.setStrict strict)
  setDigits n h := h.perform (.setDigits n)
  click := by
    intro c b h
    cases b with
    | key k => exact (h.perform (.setEntry _)).withFocus true
    | delete => exact (h.perform (.setEntry _)).withFocus true
    | clearEntry => exact h.perform .clearEntry
    | clearResults => exact h.perform .clearResults
    | reset => exact h.perform .reset
    | equals => exact h.perform .evaluate
    | panel => exact h

theorem IsShown.write (field : EntryField) (a : Action) (focused : Bool) (c : Calculator)
    (h : c.IsShown) : (a.write field focused c).IsShown := by
  cases a with
  | setEntry text => exact h.perform (.setEntry text)
  | key k => exact h.perform (.setEntry _)
  | point p => exact h

end Calculator

namespace Window

variable {field : EntryField} {w : Window}

/-- What holds between actions: no request for the focus is pending, and the calculator shows
the outcome of some trials. -/
structure AtRest (w : Window) : Prop where
  wantsFocus : w.calculator.wantsFocus = false
  shown : w.calculator.IsShown

/-- A window that a program started with some settings can come to. -/
def Reachable (field : EntryField) (w : Window) : Prop := ∃ s as, w = (ofSettings s).run field as

theorem Reachable.atRest (h : w.Reachable field) : w.AtRest := by
  obtain ⟨s, as, rfl⟩ := h
  have hact : ∀ w a, True → AtRest w → AtRest (w.act field a) := by
    intro w a _ h
    exact ⟨act_wantsFocus field w a,
      act_keeps field Calculator.stable_isShown (Calculator.IsShown.write field a) h.shown⟩
  have hstart : (Calculator.start s).IsShown := ⟨[], Calculator.shows_start s⟩
  exact run_keeps field hact ⟨rfl, hstart.withFocus false⟩ (fun _ _ => trivial)

/-- Where the focus is asked for, it is granted after the field gave it up and before Enter
is looked at. -/
theorem frame_enter_of_wantsFocus (h : w.calculator.wantsFocus = true) :
    (w.frame field (.key .enter)).calculator =
      { w.calculator with wantsFocus := false }.evaluate := by
  simp [frame, update, showEntry, field.react_enter, settle, h, Keystroke.isEnter, mapCalculator,
    usePointer, Calculator.setEntry]

theorem AtRest.settle_eq (h : w.AtRest) : w.settle = w := by
  obtain ⟨⟨entry, exact, reading, refusal, working, settings, wantsFocus⟩, focused, panelOpen⟩ := w
  obtain rfl : wantsFocus = false := h.wantsFocus
  simp [settle]

/-- A keystroke that takes the focus away and leaves the text. -/
theorem AtRest.act_of_react (h : w.AtRest) {k : Keystroke} (hk : k ≠ .escape)
    (hreact : ∀ focused text, field.react k focused text = (false, text)) :
    w.act field (.key k) = { w with focused := false } := by
  have hgiven : AtRest { w with focused := false } := ⟨h.wantsFocus, h.shown⟩
  have hframe : w.frame field (.key k) = settle { w with focused := false } := by
    simp [frame, update, hk, showEntry, hreact, settle, h.wantsFocus, usePointer,
      Calculator.setEntry]
  rw [act_eq, hframe, settle_settle, hgiven.settle_eq]

theorem act_controlEnter (hf : w.focused = true) :
    w.act field (.key .controlEnter) = w.act field (.click .equals) := by
  have hframe : w.frame field (.key .controlEnter) = w.frame field (.click .equals) := by
    simp [frame, update, showEntry, field.react_controlEnter, field.react_none, settle, hf,
      Keystroke.isEnter, usePointer, mapCalculator, Calculator.setEntry, Calculator.click]
  rw [act_eq, act_eq, hframe]

theorem AtRest.act_equals (h : w.AtRest) :
    (w.act field (.click .equals)).calculator =
      { w.calculator.evaluate with wantsFocus := false } := by
  rw [act_eq, frame, update_none, h.settle_eq]
  rfl

theorem AtRest.calculator_act_equals_iff (h : w.AtRest) :
    (w.act field (.click .equals)).calculator = w.calculator ↔
      w.calculator.evaluate = w.calculator.askFocus := by
  rw [h.act_equals]
  constructor
  · intro he
    calc w.calculator.evaluate
        = w.calculator.evaluate.askFocus := w.calculator.askFocus_evaluate.symm
      _ = { w.calculator.evaluate with wantsFocus := false }.askFocus := rfl
      _ = w.calculator.askFocus := congrArg Calculator.askFocus he
  · intro he
    rw [he, Calculator.askFocus, ← h.wantsFocus]

/-- With the focus in the entry, wherever a window has come to, Enter and Shift+Enter give up
the focus and change nothing else, while Ctrl+Enter is a click on `=`. So Enter leaves the
calculator as `=` does exactly if the outcome of the entry is on display already. -/
theorem enter_only_gives_up_focus {field : EntryField} {w : Window} (hw : w.Reachable field)
    (hf : w.focused = true) :
    w.act field (.key .enter) = { w with focused := false } ∧
      w.act field (.key .shiftEnter) = { w with focused := false } ∧
      w.act field (.key .controlEnter) = w.act field (.click .equals) ∧
      ((w.act field (.key .enter)).calculator =
          (w.act field (.click .equals)).calculator ↔
        w.calculator.Tells
          (.ofOutcome (evaluate w.calculator.settings w.calculator.entry))) := by
  have hrest := hw.atRest
  obtain ⟨ts, hts⟩ := hrest.shown
  have henter := hrest.act_of_react (by decide) field.react_enter
  refine ⟨henter, hrest.act_of_react (by decide) field.react_shiftEnter, act_controlEnter hf, ?_⟩
  rw [henter, ← hts.evaluate_eq_askFocus_iff, ← hrest.calculator_act_equals_iff, eq_comm]

/-- After `=` on one half Enter has nothing to do. -/
theorem enter_only_gives_up_focus_evaluated :
    ∃ w, w = (ofSettings .standard).run .appending
        [.key (.text "1/2"), .click .equals] ∧
      w.focused = true ∧
      (w.act .appending (.key .enter)).calculator =
        (w.act .appending (.click .equals)).calculator ∧
      w.act .appending (.key .controlEnter) = w.act .appending (.click .equals) := by
  obtain ⟨w, hw⟩ : ∃ w, w = (ofSettings .standard).run .appending
    [.key (.text "1/2"), .click .equals] := ⟨_, rfl⟩
  have hf : w.focused = true := by
    subst hw
    decide +kernel
  have hd : w.calculator.Tells
      (.ofOutcome (evaluate w.calculator.settings w.calculator.entry)) := by
    subst hw
    constructor <;> decide +kernel
  obtain ⟨-, -, hcontrol, hiff⟩ := enter_only_gives_up_focus ⟨_, _, hw⟩ hf
  exact ⟨w, hw, hf, hiff.2 hd, hcontrol⟩

/-- The entry has the focus, yet Enter does not evaluate it. -/
theorem enter_does_not_evaluate :
    ∃ w, w = (ofSettings .standard).run .appending [.key (.text "7/2")] ∧ w.focused = true ∧
      (w.act .appending (.click .equals)).calculator.exact = "7/2" ∧
      (w.act .appending (.key .enter)).calculator.exact = "" := by
  refine ⟨_, rfl, ?_, ?_, ?_⟩ <;> decide +kernel

end Window

end ExactCalc
