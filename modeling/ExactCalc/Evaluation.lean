import ExactCalc.Reading
import ExactCalc.Reduction
import ExactCalc.Scan
import ExactCalc.Settings

/-!
# Evaluating a line

Scan, reduce, and keep what led to the value. A line is evaluated under settings and
nothing else, so equal lines under equal settings have equal outcomes.
-/

set_option autoImplicit false

namespace ExactCalc

/-- A value with its derivation and the settings it was made under. -/
structure Evaluation where
  settings : Settings
  tokens : List Token
  steps : List Step
  value : Rat
  deriving DecidableEq, Repr

namespace Evaluation

def tokensText (e : Evaluation) : String := Token.listText e.tokens

def stepLines (e : Evaluation) : List String := e.steps.map Step.text

def note (e : Evaluation) : String :=
  "Pipeline: jetons (" ++ e.settings.policy.name ++
    ") → shunting-yard à deux piles → extraction."

def exact (e : Evaluation) : String := Numeral.ofRat e.value

def reading (e : Evaluation) : String := Reading.ofRat e.value e.settings.digits

end Evaluation

/-- An attempt at a line: the steps carried out, also before a failure, and the outcome. -/
structure Attempt where
  steps : List Step
  outcome : Except EvalError Evaluation

def attempt (s : Settings) (line : String) : Attempt :=
  match scan s.policy line with
  | .error e => ⟨[], .error e⟩
  | .ok ts =>
    let r := reduce ts
    ⟨r.steps, r.outcome.map fun v => ⟨s, ts, r.steps, v⟩⟩

def evaluate (s : Settings) (line : String) : Except EvalError Evaluation := (attempt s line).outcome

/-- An attempt sees no more of a line than its tokens. -/
theorem attempt_congr {s : Settings} {line line' : String}
    (h : scan s.policy line = scan s.policy line') : attempt s line = attempt s line' := by
  simp only [attempt, h]

/-- Equal tokens lead to equal outcomes, whatever the settings: an evaluation only notes
those it was made under. -/
theorem evaluate_of_scan_eq {s t : Settings} {line line' : String}
    (h : scan s.policy line = scan t.policy line') :
    evaluate t line' = (evaluate s line).map fun e => { e with settings := t } := by
  simp only [evaluate, attempt, ← h]
  cases scan s.policy line with
  | error e => rfl
  | ok ts => cases hr : (reduce ts).outcome <;> simp [hr, Except.map]

/-- What an evaluation holds: the tokens of the line, and their reduction. -/
theorem evaluate_ok {s : Settings} {line : String} {e : Evaluation} (h : evaluate s line = .ok e) :
    scan s.policy line = .ok e.tokens ∧ (reduce e.tokens).outcome = .ok e.value ∧
      e.steps = (reduce e.tokens).steps ∧ e.settings = s := by
  simp only [evaluate, attempt] at h
  cases hs : scan s.policy line with
  | error f => simp [hs] at h
  | ok ts =>
    cases hr : (reduce ts).outcome with
    | error f => simp [hs, hr, Except.map] at h
    | ok v =>
      simp only [hs, hr, Except.map, Except.ok.injEq] at h
      subst h
      exact ⟨rfl, hr, rfl, rfl⟩

end ExactCalc
