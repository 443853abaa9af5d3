import ExactCalc.Service

/-!
# The calculator

The entry being typed, the texts on display and the settings. Every text is written by
itself: an evaluation writes those that it concerns and clears others, and only the exact
value outlasts a failure.
-/

set_option autoImplicit false

namespace ExactCalc

/-- What is told beside the value: how it came about, or why there is none. -/
structure Working where
  tokens : String := ""
  steps : String := ""
  note : String := ""
  failure : String := ""
  deriving DecidableEq, Repr

structure Calculator where
  entry : String := ""
  exact : String := ""
  reading : String := ""
  refusal : String := ""
  working : Working := {}
  settings : Settings := .standard
  /-- Whether the entry asks for the keyboard focus. -/
  wantsFocus : Bool := true
  deriving DecidableEq, Repr

namespace Calculator

/-- Nothing is typed and nothing on display. -/
def start (settings : Settings) : Calculator := { settings := settings }

def setEntry (c : Calculator) (text : String) : Calculator := { c with entry := text }

def append (c : Calculator) (text : String) : Calculator := c.setEntry (c.entry ++ text)

def askFocus (c : Calculator) : Calculator := { c with wantsFocus := true }

def clearEntry (c : Calculator) : Calculator := (c.setEntry "").askFocus

def clearResults (c : Calculator) : Calculator :=
  { c with exact := "", reading := "", refusal := "", working := {}, wantsFocus := true }

def reset (c : Calculator) : Calculator := (c.setEntry "").clearResults

def setStrict (c : Calculator) (strict : Bool) : Calculator :=
  { c with settings := c.settings.withPolicy (if strict then .strict else .lenient) }

def setDigits (c : Calculator) (n : Nat) : Calculator :=
  { c with settings := c.settings.withDigits n }

/-- A failure leaves the exact value where it is. -/
def evaluate (c : Calculator) : Calculator :=
  match ExactCalc.evaluate c.settings c.entry with
  | .ok e =>
    { c with
      refusal := ""
      exact := e.exact
      reading := e.reading
      working := ⟨e.tokensText, "\n".intercalate e.stepLines, e.note, ""⟩
      wantsFocus := true }
  | .error e =>
    { c with
      working := { failure := e.kind ++ ": " ++ e.message }
      refusal := Refusal.generic.message
      reading := ""
      wantsFocus := true }

@[simp] theorem evaluate_entry (c : Calculator) : c.evaluate.entry = c.entry := by
  unfold evaluate
  split <;> rfl

end Calculator

/-- What a user, or a program acting for one, can do to a calculator. -/
inductive Command where
  | setEntry (text : String)
  | append (text : String)
  | evaluate
  | clearEntry
  | clearResults
  | reset
  | setStrict (strict : Bool)
  | setDigits (n : Nat)
  deriving DecidableEq, Repr

def Calculator.perform (c : Calculator) : Command → Calculator
  | .setEntry text => c.setEntry text
  | .append text => c.append text
  | .evaluate => c.evaluate
  | .clearEntry => c.clearEntry
  | .clearResults => c.clearResults
  | .reset => c.reset
  | .setStrict strict => c.setStrict strict
  | .setDigits n => c.setDigits n

end ExactCalc
