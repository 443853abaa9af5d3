import ExactCalc.Calculator

/-!
# Keypad

Digits join the entry as they are. An operator is set off by single spaces, which no
policy minds and which never part two digits that were together.
-/

set_option autoImplicit false

namespace ExactCalc

inductive Key where
  | digit (d : Fin 10)
  | op (o : Op)
  deriving DecidableEq, Repr

namespace Key

def symbol : Key → Char
  | .digit d => d.val.digitChar
  | .op o => o.symbol

def text (k : Key) : String := String.singleton k.symbol

/-- The entry after a key press. -/
def press (entry : List Char) : Key → List Char
  | .digit d => entry ++ [d.val.digitChar]
  | .op o =>
    let kept := Text.trimEnd (· = ' ') entry
    kept ++ (if kept = [] then [] else [' ']) ++ [o.symbol, ' ']

/-- The keys in the order in which they stand on the pad. -/
def pad : List Key :=
  [.digit 7, .digit 8, .digit 9, .op .div, .digit 4, .digit 5, .digit 6, .op .mul,
   .digit 1, .digit 2, .digit 3, .op .sub, .digit 0]

end Key

inductive Button where
  | key (k : Key)
  | delete
  | clearEntry
  | clearResults
  | reset
  | equals
  | panel
  deriving DecidableEq, Repr

namespace Button

def label : Button → String
  | .key k => k.text
  | .delete => "DEL"
  | .clearEntry => "C"
  | .clearResults => "CLR"
  | .reset => "AC"
  | .equals => "="
  | .panel => "Démarche"

def all : List Button :=
  Key.pad.map .key ++
    [.key (.op .add), .delete, .clearEntry, .clearResults, .reset, .equals, .panel]

def ofLabel? (s : String) : Option Button := all.find? (·.label = s)

end Button

namespace Calculator

def press (c : Calculator) (k : Key) : Calculator :=
  (c.setEntry (String.ofList (k.press c.entry.toList))).askFocus

/-- Takes the last character off the entry. -/
def delete (c : Calculator) : Calculator :=
  (c.setEntry (String.ofList c.entry.toList.dropLast)).askFocus

/-- The panel button does not concern the calculator. -/
def click (c : Calculator) : Button → Calculator
  | .key k => c.press k
  | .delete => c.delete
  | .clearEntry => c.clearEntry
  | .clearResults => c.clearResults
  | .reset => c.reset
  | .equals => c.evaluate
  | .panel => c

end Calculator

end ExactCalc
