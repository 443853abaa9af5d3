import ExactCalc.Keypad

/-!
# The calculator window

A calculator on screen, with the keyboard focus of the entry field and a panel that can be
closed. It is drawn frame by frame. In each frame the entry field reacts to the keyboard
first; then the focus is granted if it was asked for; then Enter evaluates, if the field has
the focus at that point; the buttons come last. How the field reacts is up to the toolkit that
draws it: of that no more is known here than what the field promises.
-/

set_option autoImplicit false

namespace ExactCalc

/-- What the keyboard brings in a frame. -/
inductive Keystroke where
  | none
  | escape
  | enter
  | shiftEnter
  | controlEnter
  | text (typed : String)
  deriving DecidableEq, Repr

/-- Whether the Enter key was pressed, with or without another. -/
def Keystroke.isEnter : Keystroke → Bool
  | .enter | .shiftEnter | .controlEnter => true
  | _ => false

def Keystroke.isText : Keystroke → Bool
  | .text _ => true
  | _ => false

/-- A single-line text field: what a keystroke makes of its focus and its text. Only typed text
alters the text. Enter and Shift+Enter take the focus away, Ctrl+Enter leaves it. -/
structure EntryField where
  react : Keystroke → Bool → String → Bool × String
  react_none : ∀ focused text, react .none focused text = (focused, text)
  react_enter : ∀ focused text, react .enter focused text = (false, text)
  react_shiftEnter : ∀ focused text, react .shiftEnter focused text = (false, text)
  react_controlEnter : ∀ focused text, react .controlEnter focused text = (focused, text)
  react_escape : ∀ focused text, (react .escape focused text).2 = text

theorem EntryField.react_text (field : EntryField) {k : Keystroke} (hk : k.isText = false)
    (focused : Bool) (text : String) : (field.react k focused text).2 = text := by
  cases k with
  | none => rw [field.react_none]
  | escape => rw [field.react_escape]
  | enter => rw [field.react_enter]
  | shiftEnter => rw [field.react_shiftEnter]
  | controlEnter => rw [field.react_controlEnter]
  | text typed => cases hk

/-- A field with the cursor at the end: what is typed is appended. A line break by itself is
left to the Enter key; within a longer text it is a character like any other. -/
def EntryField.appending : EntryField where
  react
    | .enter, _, text | .shiftEnter, _, text | .escape, _, text => (false, text)
    | .none, focused, text | .controlEnter, focused, text => (focused, text)
    | .text typed, focused, text =>
      (focused, if focused && typed != "\n" && typed != "\r" then text ++ typed else text)
  react_none _ _ := rfl
  react_enter _ _ := rfl
  react_shiftEnter _ _ := rfl
  react_controlEnter _ _ := rfl
  react_escape _ _ := rfl

/-- What the pointer does in a frame. -/
inductive Pointer where
  | none
  | click (b : Button)
  | toggleStrict
  | setDigits (n : Nat)
  deriving DecidableEq, Repr

structure Window where
  calculator : Calculator
  focused : Bool := true
  panelOpen : Bool := true
  deriving DecidableEq, Repr

/-- A text set from outside, a keystroke or a movement of the pointer. -/
inductive Action where
  | setEntry (text : String)
  | key (k : Keystroke)
  | point (p : Pointer)
  deriving DecidableEq, Repr

abbrev Action.click (b : Button) : Action := .point (.click b)

/-- The calculator once the text that an action brings is in the entry. -/
def Action.write (field : EntryField) (focused : Bool) (c : Calculator) : Action → Calculator
  | .setEntry text => c.setEntry text
  | .key k => c.setEntry (field.react k focused c.entry).2
  | .point _ => c

/-- What neither a button nor a setting undoes. -/
structure Calculator.Stable (P : Calculator → Prop) : Prop where
  withFocus : ∀ {c : Calculator} (wantsFocus : Bool), P c → P { c with wantsFocus := wantsFocus }
  click : ∀ {c : Calculator} (b : Button), P c → P (c.click b)
  setStrict : ∀ {c : Calculator} (strict : Bool), P c → P (c.setStrict strict)
  setDigits : ∀ {c : Calculator} (n : Nat), P c → P (c.setDigits n)

namespace Window

def mapCalculator (w : Window) (f : Calculator → Calculator) : Window :=
  { w with calculator := f w.calculator }

/-- Grants a pending request for the focus. -/
def settle (w : Window) : Window :=
  { w with calculator := { w.calculator with wantsFocus := false },
           focused := w.focused || w.calculator.wantsFocus }

/-- The field's reaction, the request for the focus, and Enter for a field that has it. -/
def showEntry (field : EntryField) (k : Keystroke) (w : Window) : Window :=
  let (focused, text) := field.react k w.focused w.calculator.entry
  let v := settle { w with calculator := w.calculator.setEntry text, focused := focused }
  if v.focused && k.isEnter then v.mapCalculator Calculator.evaluate else v

def usePointer (w : Window) : Pointer → Window
  | .none => w
  | .click .panel => { w with panelOpen := !w.panelOpen }
  | .click b => w.mapCalculator (·.click b)
  | .toggleStrict => w.mapCalculator fun c => c.setStrict (!c.settings.isStrict)
  | .setDigits n => w.mapCalculator (·.setDigits n)

/-- One frame. Escape clears the entry before anything is drawn. -/
def update (field : EntryField) (w : Window) (k : Keystroke) (p : Pointer) : Window :=
  let v := if k = .escape then w.mapCalculator Calculator.clearEntry else w
  (v.showEntry field k).usePointer p

def idle (field : EntryField) (w : Window) : Window := w.update field .none .none

/-- The frame that an action is met in. -/
def frame (field : EntryField) (w : Window) : Action → Window
  | .setEntry text => (w.mapCalculator (·.setEntry text)).idle field
  | .key k => w.update field k .none
  | .point p => w.update field .none p

/-- After an action two frames pass before the next one. -/
def act (field : EntryField) (w : Window) (a : Action) : Window :=
  ((w.frame field a).idle field).idle field

def run (field : EntryField) (w : Window) (as : List Action) : Window := as.foldl (act field) w

def ofSettings (s : Settings) : Window := settle { calculator := .start s }

theorem usePointer_click (w : Window) (b : Button) :
    (w.usePointer (.click b)).calculator = w.calculator.click b := by
  cases b <;> rfl

theorem usePointer_keeps {P : Calculator → Prop} (hP : Calculator.Stable P) {w : Window}
    (h : P w.calculator) (p : Pointer) : P (w.usePointer p).calculator := by
  cases p with
  | none => exact h
  | click b =>
    rw [usePointer_click]
    exact hP.click b h
  | toggleStrict => exact hP.setStrict _ h
  | setDigits n => exact hP.setDigits n h

section Frames

variable (field : EntryField)

theorem showEntry_none (w : Window) : w.showEntry field .none = w.settle := by
  simp only [showEntry, field.react_none, Keystroke.isEnter, Bool.and_false, Bool.false_eq_true,
    if_false]
  rfl

theorem update_none (w : Window) (p : Pointer) :
    w.update field .none p = w.settle.usePointer p := by
  simp only [update, reduceCtorEq, if_false, showEntry_none]

theorem idle_eq (w : Window) : w.idle field = w.settle := update_none field w .none

theorem settle_settle (w : Window) : w.settle.settle = w.settle := by
  simp [settle]

/-- A frame without input grants the focus, and a second one adds nothing. -/
theorem act_eq (w : Window) (a : Action) : w.act field a = (w.frame field a).settle := by
  rw [act, idle_eq, idle_eq, settle_settle]

/-- No request for the focus outlives the action that made it. -/
theorem act_wantsFocus (w : Window) (a : Action) :
    (w.act field a).calculator.wantsFocus = false := by
  rw [act_eq]
  rfl

theorem showEntry_keeps {P : Calculator → Prop} (hP : Calculator.Stable P) {k : Keystroke}
    (hk : ∀ focused c, P c → P ((Action.key k).write field focused c)) {w : Window}
    (h : P w.calculator) : P (w.showEntry field k).calculator := by
  have hsettled := hP.withFocus false (hk w.focused _ h)
  simp only [showEntry]
  split
  · exact hP.click .equals hsettled
  · exact hsettled

/-- What is stable is kept by an action, if the text that the action brings respects it. -/
theorem act_keeps {P : Calculator → Prop} (hP : Calculator.Stable P) {a : Action}
    (ha : ∀ focused c, P c → P (a.write field focused c)) {w : Window} (h : P w.calculator) :
    P (w.act field a).calculator := by
  rw [act_eq]
  apply hP.withFocus false
  cases a with
  | setEntry text =>
    rw [frame, idle_eq]
    exact hP.withFocus false (ha w.focused _ h)
  | point p =>
    rw [frame, update_none]
    exact usePointer_keeps hP (hP.withFocus false h) p
  | key k =>
    apply showEntry_keeps field hP ha
    split
    · exact hP.click .clearEntry h
    · exact h

/-- What every admitted action keeps, a list of them keeps. -/
theorem run_keeps {P : Window → Prop} {admitted : Action → Prop}
    (hact : ∀ w a, admitted a → P w → P (w.act field a)) {w : Window} {as : List Action} (hw : P w)
    (has : ∀ a ∈ as, admitted a) : P (w.run field as) := by
  induction as generalizing w with
  | nil => exact hw
  | cons a as ih =>
    obtain ⟨ha, has⟩ := List.forall_mem_cons.1 has
    exact ih (hact w a ha hw) has

end Frames

def hint : String := "Ex: 2+3*4, 20/2/2, 7/2"

def ifEmpty (text instead : String) : String := if text = "" then instead else text

def panelTexts (d : Working) : List String :=
  if d.failure = "" then
    ["Jetons :", d.tokens, "Réductions :", d.steps, "Note :", d.note]
  else ["Échec :", d.failure]

/-- The texts on screen in drawing order, without the empty ones. -/
def texts (w : Window) : List String :=
  let c := w.calculator
  List.filter (· ≠ "") <|
    ["Calculatrice infixe", "Entrée :", ifEmpty c.entry hint, "C", "CLR", "AC", "strict",
      "Lecture :", Numeral.ofNat c.settings.digits ++ " chiffres"] ++
    Key.pad.map Key.text ++
    [Button.delete.label, Button.equals.label, (Key.op .add).text,
      c.refusal, "EXACT :", c.exact, "Lecture décimale :",
      ifEmpty c.reading "indisponible", "Démarche"] ++
    if w.panelOpen then panelTexts c.working else []

end Window

end ExactCalc
