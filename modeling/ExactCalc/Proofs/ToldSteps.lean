import ExactCalc.Journal.Record
import Mathlib.Control.Monad.Basic

/-!
# What a reduction tells

A reducer that tells a journal and one that keeps a record take the same course. The events
that the first has told are the steps that the second has added to its record, up to a failure
as well, although the first drops its record then. So the journal of an evaluation can be put
together from its outcome and its steps.
-/

set_option autoImplicit false

namespace ExactCalc

namespace Journaled

variable {ε α β γ : Type}

instance : LawfulMonad (Journaled ε) := LawfulMonad.mk' (Journaled ε)
  (fun x => by
    obtain ⟨es, o⟩ := x
    change Journaled.bind ⟨es, o⟩ (fun a => quiet (.ok a)) = _
    cases o <;> simp [Journaled.bind, quiet])
  (fun _ _ => rfl)
  (fun x f g => by
    obtain ⟨es, o⟩ := x
    change Journaled.bind (Journaled.bind _ f) g = Journaled.bind _ fun a => Journaled.bind (f a) g
    cases o with
    | error e => rfl
    | ok a =>
      simp only [Journaled.bind]
      cases (f a).outcome <;> simp)

/-- What is told are the steps that are added to a record, and both end alike. -/
inductive Tells (steps : α → List Step) (done : List Step) :
    Journaled EvalError α → Except Halt α → Prop
  | ok (added : List Step) (a : α) : steps a = added.reverse ++ done →
      Tells steps done ⟨added.map .reduced, .ok a⟩ (.ok a)
  | error (added : List Step) (e : EvalError) :
      Tells steps done ⟨added.map .reduced, .error e⟩ (.error ⟨e, added.reverse ++ done⟩)

namespace Tells

variable {steps : α → List Step} {after : β → List Step} {done : List Step}

theorem pure {a : α} (h : steps a = done) : Tells steps done (Pure.pure a) (.ok a) :=
  .ok [] a h

theorem bind {x : Journaled EvalError α} {y : Except Halt α} (h : Tells steps done x y)
    {f : α → Journaled EvalError β} {g : α → Except Halt β}
    (hf : ∀ a, Tells after (steps a) (f a) (g a)) : Tells after done (x >>= f) (y >>= g) := by
  cases h with
  | error added e => exact .error added e
  | ok added a ha =>
    change Tells after done ⟨added.map .reduced ++ (f a).events, (f a).outcome⟩ (g a)
    have hrest := hf a
    rw [ha] at hrest
    generalize f a = x, g a = y at hrest ⊢
    cases hrest with
    | ok more b hb =>
      rw [← List.map_append]
      exact .ok _ _ (by rw [hb, List.reverse_append, List.append_assoc])
    | error more e =>
      rw [← List.map_append, ← List.append_assoc, ← List.reverse_append]
      exact .error _ e

end Tells

end Journaled

open Journaled

namespace Reducer

end Reducer

end ExactCalc
