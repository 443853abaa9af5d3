import ExactCalc.Settings
import ExactCalc.Step

/-!
# Journal events

What is worth recording, each event with its level, the part of the program it comes
from, a message and named fields. A field holds free text or the written form of a value.
-/

set_option autoImplicit false

namespace ExactCalc

inductive Level where
  | error
  | warn
  | info
  | debug
  | trace
  deriving DecidableEq, Repr

def Level.name : Level → String
  | .error => "ERROR"
  | .warn => "WARN"
  | .info => "INFO"
  | .debug => "DEBUG"
  | .trace => "TRACE"

structure Field where
  name : String
  value : String
  freeText : Bool := false
  deriving DecidableEq, Repr

/-- An event as a subscriber to the journal gets it. -/
structure Entry where
  level : Level
  target : String
  message : String
  fields : List Field
  deriving DecidableEq, Repr

inductive Event where
  | evaluating (line : String) (policy : Policy)
  | reduced (step : Step)
  | evaluated (value : Rat)
  | refused (e : EvalError)
  | clientRefused (e : EvalError)
  | overrideIgnored (w : Warning)
  | started (settings : Settings)
  deriving DecidableEq, Repr

namespace Event

def level : Event → Level
  | evaluating _ _ | evaluated _ | refused _ | clientRefused _ => .debug
  | reduced _ => .trace
  | overrideIgnored _ => .warn
  | started _ => .info

def target : Event → String
  | evaluating _ _ | evaluated _ | refused _ => "calculatrice_infixe::noyau::eval"
  | reduced _ => "calculatrice_infixe::noyau::reduction"
  | clientRefused _ => "calculatrice_infixe::noyau::service"
  | overrideIgnored _ => "calculatrice_infixe::noyau::config"
  | started _ => "calculatrice_infixe"

def message : Event → String
  | evaluating _ _ => "évaluation"
  | reduced _ => "réduction"
  | evaluated _ => "évaluation réussie"
  | refused _ => "évaluation refusée"
  | clientRefused _ => "refus client"
  | overrideIgnored (.policyIgnored _) => "surcharge ignorée"
  | overrideIgnored (.digitsIgnored _ _) => "digits ignorés"
  | started _ => "démarrage"

def fields : Event → List Field
  | evaluating line p => [⟨"expression", line, true⟩, ⟨"politique", p.name, false⟩]
  | reduced s => [⟨"etape", s.text, false⟩]
  | evaluated v => [⟨"resultat", Numeral.ofRat v, false⟩]
  | refused e | clientRefused e => [⟨"genre", e.kind, true⟩, ⟨"erreur", e.message, false⟩]
  | overrideIgnored (.policyIgnored e) => [⟨"erreur", e.message, false⟩]
  | overrideIgnored (.digitsIgnored text fault) =>
    [⟨"valeur", text, true⟩, ⟨"erreur", fault.message, false⟩]
  | started s => [⟨"politique", s.policy.name, false⟩, ⟨"digits", Numeral.ofNat s.digits, false⟩]

def entry (e : Event) : Entry := ⟨e.level, e.target, e.message, e.fields⟩

end Event

end ExactCalc
