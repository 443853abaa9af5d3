import ExactCalc.Calculator

/-!
# What a calculator stands for

The last value and the latest outcome in place of the texts that show them. A failed
evaluation replaces the outcome but not the value. All texts of a calculator are functions
of this state, and every command does to the texts what it does to the state.
-/

set_option autoImplicit false

namespace ExactCalc

inductive Display where
  | blank
  | derivation (e : Evaluation)
  | failure (e : EvalError)
  deriving DecidableEq, Repr

structure Session where
  settings : Settings := .standard
  entry : String := ""
  lastValue : Option Rat := none
  display : Display := .blank
  wantsFocus : Bool := true
  deriving DecidableEq, Repr

namespace Display

def reading : Display → String
  | .derivation e => e.reading
  | _ => ""

def refusal : Display → String
  | .failure _ => Refusal.generic.message
  | _ => ""

def working : Display → Working
  | .derivation e => ⟨e.tokensText, "\n".intercalate e.stepLines, e.note, ""⟩
  | .failure e => { failure := e.kind ++ ": " ++ e.message }
  | .blank => {}

def ofOutcome : Except EvalError Evaluation → Display
  | .ok e => .derivation e
  | .error e => .failure e

end Display

namespace Session

/-- A session before anything is done. -/
def start (settings : Settings) : Session := { settings := settings }

def evaluate (s : Session) : Session :=
  match ExactCalc.evaluate s.settings s.entry with
  | .ok e => { s with lastValue := some e.value, display := .derivation e, wantsFocus := true }
  | .error e => { s with display := .failure e, wantsFocus := true }

def perform (s : Session) : Command → Session
  | .setEntry text => { s with entry := text }
  | .append text => { s with entry := s.entry ++ text }
  | .evaluate => s.evaluate
  | .clearEntry => { s with entry := "", wantsFocus := true }
  | .clearResults => { s with lastValue := none, display := .blank, wantsFocus := true }
  | .reset => { s with entry := "", lastValue := none, display := .blank, wantsFocus := true }
  | .setStrict strict =>
    { s with settings := s.settings.withPolicy (if strict then .strict else .lenient) }
  | .setDigits n => { s with settings := s.settings.withDigits n }

/-- The calculator that shows a session. -/
def calculator (s : Session) : Calculator where
  entry := s.entry
  exact := s.lastValue.elim "" Numeral.ofRat
  reading := s.display.reading
  refusal := s.display.refusal
  working := s.display.working
  settings := s.settings
  wantsFocus := s.wantsFocus

theorem evaluate_calculator (s : Session) : s.calculator.evaluate = s.evaluate.calculator := by
  rw [Calculator.evaluate, evaluate]
  change (match ExactCalc.evaluate s.settings s.entry with | .ok _ => _ | .error _ => _) = _
  cases ExactCalc.evaluate s.settings s.entry <;> rfl

/-- The texts follow the state, one command at a time. -/
theorem perform_calculator (s : Session) (c : Command) :
    s.calculator.perform c = (s.perform c).calculator := by
  cases c with
  | evaluate => exact s.evaluate_calculator
  | _ => rfl

end Session

end ExactCalc
