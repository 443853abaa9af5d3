import ExactCalc.Journal.Event

/-!
# Start-up

The program starts from the standard settings, applies the overrides it finds, and
reports those it had to ignore before the settings it ends up with. A subscriber is set up
first, from the text of a filter, and decides which of the entries are written.
-/

set_option autoImplicit false

namespace ExactCalc.Startup

/-- What is made of a filter text: a choice of entries, or the end of the program. -/
abbrev Subscriber := Option String → Option (Entry → Bool)

def outcome (policy digits : Option String) : Settings × List Warning :=
  Settings.standard.overrides policy digits

def events (policy digits : Option String) : List Event :=
  let r := outcome policy digits
  r.2.map .overrideIgnored ++ [.started r.1]

def log (subscriber : Subscriber) (policy digits filter : Option String) : List Entry :=
  match subscriber filter with
  | some shows => ((events policy digits).map Event.entry).filter shows
  | none => []

end ExactCalc.Startup
