import ExactCalc.Session
import Mathlib.Control.Monad.Basic

/-!
# What a calculator displays

A calculator shows a display and a value. They are determined by the evaluations that
were asked for since the results were last cleared: the display by the latest one, the
value by the latest that succeeded. Edits and changed settings in between show in later
evaluations only, so no text on display is stale.
-/

set_option autoImplicit false

namespace ExactCalc

/-- An evaluation that was asked for: the settings and the entry of that moment. -/
structure Trial where
  settings : Settings
  line : String
  deriving DecidableEq, Repr

namespace Trial

def outcome (t : Trial) : Except EvalError Evaluation := evaluate t.settings t.line

def value? (t : Trial) : Option Rat := t.outcome.toOption.map Evaluation.value

end Trial

namespace Calculator

def run (c : Calculator) (cs : List Command) : Calculator := cs.foldl perform c

/-- The trials since the results were last cleared, latest first, after one more command. -/
def remember (c : Calculator) (ts : List Trial) : Command → List Trial
  | .evaluate => ⟨c.settings, c.entry⟩ :: ts
  | .clearResults | .reset => []
  | .setEntry _ | .append _ | .clearEntry | .setStrict _ | .setDigits _ => ts

/-- The same after a list of commands, each met in the calculator that those before it leave. -/
def trials : Calculator → List Trial → List Command → List Trial
  | _, ts, [] => ts
  | c, ts, cmd :: cs => trials (c.perform cmd) (c.remember ts cmd) cs

end Calculator

namespace Session

/-- The session is in the state of the latest trial, with the value of the latest success. -/
structure Records (s : Session) (ts : List Trial) : Prop where
  lastValue : s.lastValue = ts.findSome? Trial.value?
  display : s.display = ts.head?.elim .blank fun t => .ofOutcome t.outcome

theorem Records.evaluate {s : Session} {ts : List Trial} (h : s.Records ts) :
    s.evaluate.Records (⟨s.settings, s.entry⟩ :: ts) := by
  have ht : Trial.outcome ⟨s.settings, s.entry⟩ = ExactCalc.evaluate s.settings s.entry := rfl
  cases he : ExactCalc.evaluate s.settings s.entry with
  | error e =>
    constructor
    · simp [Session.evaluate, he, Trial.value?, ht, Except.toOption, h.lastValue]
    · simp [Session.evaluate, he, ht, Display.ofOutcome]
  | ok e =>
    constructor
    · simp [Session.evaluate, he, Trial.value?, ht, Except.toOption]
    · simp [Session.evaluate, he, ht, Display.ofOutcome]

theorem Records.perform {s : Session} {ts : List Trial} (h : s.Records ts) (c : Command) :
    (s.perform c).Records (s.calculator.remember ts c) := by
  cases c with
  | evaluate => exact h.evaluate
  | clearResults => exact ⟨rfl, rfl⟩
  | reset => exact ⟨rfl, rfl⟩
  | setEntry text => exact ⟨h.lastValue, h.display⟩
  | append text => exact ⟨h.lastValue, h.display⟩
  | clearEntry => exact ⟨h.lastValue, h.display⟩
  | setStrict strict => exact ⟨h.lastValue, h.display⟩
  | setDigits n => exact ⟨h.lastValue, h.display⟩

end Session

/-- The texts of the calculator are those of a session in the state that the trials lead to. -/
def Calculator.Shows (c : Calculator) (ts : List Trial) : Prop :=
  ∃ s : Session, s.calculator = c ∧ s.Records ts

namespace Calculator

theorem shows_start (settings : Settings) : (start settings).Shows [] :=
  ⟨Session.start settings, rfl, rfl, rfl⟩

theorem Shows.perform {c : Calculator} {ts : List Trial} (h : c.Shows ts) (cmd : Command) :
    (c.perform cmd).Shows (c.remember ts cmd) := by
  obtain ⟨s, rfl, hs⟩ := h
  exact ⟨s.perform cmd, (s.perform_calculator cmd).symm, hs.perform cmd⟩

theorem Shows.run {c : Calculator} {ts : List Trial} (h : c.Shows ts) (cs : List Command) :
    (c.run cs).Shows (c.trials ts cs) := by
  induction cs generalizing c ts with
  | nil => exact h
  | cons cmd cs ih => exact ih (h.perform cmd)

end Calculator

namespace Token

theorem text_ne_empty (t : Token) : t.text ≠ "" := by
  cases t with
  | num r =>
    have hint : Numeral.ofInt r.num ≠ "" := by
      cases r.num <;> simp [Numeral.ofInt, Numeral.ofNat]
    change Numeral.ofRat r ≠ ""
    unfold Numeral.ofRat
    by_cases hd : r.den = 1
    · rw [if_pos hd]
      exact hint
    · simp [hd, hint]
  | op o => simp [text, Op.text]

theorem listText_ne_empty {ts : List Token} (h : ts ≠ []) : listText ts ≠ "" := by
  cases ts with
  | nil => exact absurd rfl h
  | cons t ts =>
    cases ts with
    | nil => simpa [listText] using t.text_ne_empty
    | cons u us => simp [listText, String.intercalate_cons_cons]

end Token

namespace Evaluation

theorem tokensText_ne_empty {s : Settings} {line : String} {e : Evaluation}
    (h : evaluate s line = .ok e) : e.tokensText ≠ "" := by
  obtain ⟨-, hr, -⟩ := evaluate_ok h
  apply Token.listText_ne_empty
  intro hnil
  rw [hnil] at hr
  cases hr

theorem note_ne_empty (e : Evaluation) : e.note ≠ "" := by
  intro h
  obtain ⟨hhead, -⟩ := String.append_eq_empty_iff.1 h
  obtain ⟨hfirst, -⟩ := String.append_eq_empty_iff.1 hhead
  exact absurd hfirst (by decide)

end Evaluation

namespace Calculator

structure IsBlank (c : Calculator) : Prop where
  exact : c.exact = ""
  reading : c.reading = ""
  refusal : c.refusal = ""
  tokens : c.working.tokens = ""
  steps : c.working.steps = ""
  note : c.working.note = ""
  failure : c.working.failure = ""

/-- Every text is that of the evaluation `e`, read with the decimals asked for in `t`. -/
structure ShowsSuccess (c : Calculator) (t : Trial) (e : Evaluation) : Prop where
  exact : c.exact = Numeral.ofRat e.value
  reading : c.reading = Reading.ofRat e.value t.settings.digits
  tokens : c.working.tokens = e.tokensText
  tokens_ne : c.working.tokens ≠ ""
  steps : c.working.steps = "\n".intercalate e.stepLines
  note : c.working.note = e.note
  note_ne : c.working.note ≠ ""
  refusal : c.refusal = ""
  failure : c.working.failure = ""

/-- Only the failure is told, beside the value of the latest success before it, if any. -/
structure ShowsFailure (c : Calculator) (older : List Trial) (e : EvalError) : Prop where
  refusal : c.refusal = "Invalid expression provided"
  failure : c.working.failure = e.kind ++ ": " ++ e.message
  reading : c.reading = ""
  tokens : c.working.tokens = ""
  steps : c.working.steps = ""
  note : c.working.note = ""
  exact : c.exact = (older.findSome? Trial.value?).elim "" Numeral.ofRat

theorem Shows.isBlank {c : Calculator} (h : c.Shows []) : c.IsBlank := by
  obtain ⟨s, rfl, hs⟩ := h
  have hd : s.display = .blank := hs.display
  have hv : s.lastValue = none := hs.lastValue
  constructor <;> simp [Session.calculator, hd, hv, Display.reading, Display.refusal,
    Display.working]

theorem Shows.success {c : Calculator} {t : Trial} {older : List Trial} {e : Evaluation}
    (h : c.Shows (t :: older)) (ht : t.outcome = .ok e) : c.ShowsSuccess t e := by
  obtain ⟨s, rfl, hs⟩ := h
  have hd : s.display = .derivation e := by simp [hs.display, ht, Display.ofOutcome]
  have hv : s.lastValue = some e.value := by
    simp [hs.lastValue, Trial.value?, ht, Except.toOption]
  have hsettings : e.settings = t.settings := (evaluate_ok ht).2.2.2
  have hworking : s.calculator.working =
      ⟨e.tokensText, "\n".intercalate e.stepLines, e.note, ""⟩ := by
    rw [Session.calculator, hd]
    rfl
  exact {
    exact := by rw [Session.calculator, hv]; rfl
    reading := by rw [Session.calculator, hd, ← hsettings]; rfl
    tokens := by rw [hworking]
    tokens_ne := by rw [hworking]; exact Evaluation.tokensText_ne_empty ht
    steps := by rw [hworking]
    note := by rw [hworking]
    note_ne := by rw [hworking]; exact e.note_ne_empty
    refusal := by rw [Session.calculator, hd]; rfl
    failure := by rw [hworking] }

theorem Shows.failure {c : Calculator} {t : Trial} {older : List Trial} {e : EvalError}
    (h : c.Shows (t :: older)) (ht : t.outcome = .error e) : c.ShowsFailure older e := by
  obtain ⟨s, rfl, hs⟩ := h
  have hd : s.display = .failure e := by simp [hs.display, ht, Display.ofOutcome]
  have hnone : t.value? = none := by simp [Trial.value?, ht, Except.toOption]
  have hworking : s.calculator.working = { failure := e.kind ++ ": " ++ e.message } := by
    rw [Session.calculator, hd]
    rfl
  exact {
    refusal := by rw [Session.calculator, hd]; rfl
    failure := by rw [hworking]
    reading := by rw [Session.calculator, hd]; rfl
    tokens := by rw [hworking]
    steps := by rw [hworking]
    note := by rw [hworking]
    exact := by rw [Session.calculator, hs.lastValue, List.findSome?_cons, hnone] }

/-- Whatever is done to a calculator from its start, the evaluations asked for since the
results were last cleared decide what it displays. After none, nothing. If the latest one
succeeded, its own value, reading, tokens, steps and note, and no refusal. If it failed, the
refusal and the cause, no derivation, and the exact value of the latest success before it. -/
theorem display_history (settings : Settings) (cs : List Command) :
    ((start settings).trials [] cs = [] → ((start settings).run cs).IsBlank) ∧
      (∀ t older e, (start settings).trials [] cs = t :: older → t.outcome = .ok e →
        ((start settings).run cs).ShowsSuccess t e) ∧
      ∀ t older e, (start settings).trials [] cs = t :: older → t.outcome = .error e →
        ((start settings).run cs).ShowsFailure older e := by
  have hrun := (shows_start settings).run cs
  refine ⟨fun h => ?_, fun t older e h ht => ?_, fun t older e h ht => ?_⟩
  · rw [h] at hrun
    exact hrun.isBlank
  · rw [h] at hrun
    exact hrun.success ht
  · rw [h] at hrun
    exact hrun.failure ht

/-- A success, then a failure under the other policy, then edits: the failure is told and
the first value still stands. -/
theorem display_history_kept_value :
    ∃ cs older,
      cs = [.setEntry "7/2", .evaluate, .append "/0", .setStrict true, .evaluate, .setDigits 3,
        .clearEntry] ∧
      (start .standard).trials [] cs = ⟨.strict, "7/2/0"⟩ :: older ∧
      Trial.outcome ⟨.strict, "7/2/0"⟩ = .error .divisionByZero ∧
      ((start .standard).run cs).ShowsFailure older .divisionByZero ∧
      ((start .standard).run cs).exact = "7/2" := by
  obtain ⟨cs, hcs⟩ : ∃ cs : List Command, cs = [.setEntry "7/2", .evaluate, .append "/0",
    .setStrict true, .evaluate, .setDigits 3, .clearEntry] := ⟨_, rfl⟩
  have htrials : (start .standard).trials [] cs = [⟨.strict, "7/2/0"⟩, ⟨.standard, "7/2"⟩] := by
    subst hcs
    decide +kernel
  have hout : Trial.outcome ⟨.strict, "7/2/0"⟩ = .error .divisionByZero := by decide +kernel
  have hshown := (display_history .standard cs).2.2 _ _ _ htrials hout
  refine ⟨cs, _, hcs, htrials, hout, hshown, ?_⟩
  rw [hshown.exact]
  decide +kernel

end Calculator

end ExactCalc
