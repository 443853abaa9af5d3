import ExactCalc.Journal.Event

/-!
# Computations that keep a journal

A computation tells its events one by one where they happen. What follows a failure is not
carried out and tells nothing, but what was told before it stays.
-/

set_option autoImplicit false

namespace ExactCalc

/-- The events that were told, in order, and how the computation ended. -/
structure Journaled (ε α : Type) where
  events : List Event
  outcome : Except ε α

namespace Journaled

variable {ε δ α β : Type}

def tell (e : Event) : Journaled ε Unit := ⟨[e], .ok ()⟩

/-- A computation that tells nothing. -/
def quiet (x : Except ε α) : Journaled ε α := ⟨[], x⟩

protected def bind (x : Journaled ε α) (f : α → Journaled ε β) : Journaled ε β :=
  match x.outcome with
  | .ok a => ⟨x.events ++ (f a).events, (f a).outcome⟩
  | .error e => ⟨x.events, .error e⟩

instance : Monad (Journaled ε) where
  pure a := quiet (.ok a)
  bind := Journaled.bind

/-- A computation that goes on in either case. -/
def resume (x : Journaled ε α) (f : Except ε α → Journaled δ β) : Journaled δ β :=
  ⟨x.events ++ (f x.outcome).events, (f x.outcome).outcome⟩

end Journaled

end ExactCalc
