import ExactCalc.Journal.Event
import ExactCalc.Proofs.OverrideTexts
import Mathlib.Data.List.Induction

/-!
# What overrides do

Each override is decided by its own text: it is absent, it takes effect, or it is left out with
one warning that says why. Neither looks at what became of the other. However settings are
made and changed, the number of decimals is the one asked for last, cut down to the bound.
-/

set_option autoImplicit false

namespace ExactCalc

open Text

namespace Settings

/-- The number of decimals that a text asks for. -/
def Asks (text : String) (n : Nat) : Prop :=
  ∃ ds, Trimmed text.toList ds ∧ Unsigned.Spells ds n ∧ n < Nat.pow 2 64

def policyNotice (text : String) : Entry where
  level := .warn
  target := "calculatrice_infixe::noyau::config"
  message := "surcharge ignorée"
  fields := [⟨"erreur", "politique de jetons inconnue: " ++ quote text ++
    " (attendu: souple | strict)", false⟩]

def digitsNotice (text : String) (fault : Unsigned.Fault) : Entry where
  level := .warn
  target := "calculatrice_infixe::noyau::config"
  message := "digits ignorés"
  fields := [⟨"valeur", text, true⟩, ⟨"erreur", match fault with
    | .empty => "cannot parse integer from empty string"
    | .badDigit => "invalid digit found in string"
    | .tooLarge => "number too large to fit in target type", false⟩]

/-- From a policy and a text, if any, to the policy that is then in force and the notices. -/
inductive PolicyOverride (old : Policy) : Option String → Policy → List Entry → Prop
  | absent : PolicyOverride old none old []
  | named {text : String} {p : Policy} : p.NamedBy text → PolicyOverride old (some text) p []
  | ignored {text : String} : (∀ p : Policy, ¬ p.NamedBy text) →
      PolicyOverride old (some text) old [policyNotice text]

/-- The same for the number of decimals; a text that is ignored has exactly one fault. -/
inductive DigitsOverride (old : Nat) : Option String → Nat → List Entry → Prop
  | absent : DigitsOverride old none old []
  | asked {text : String} {n : Nat} : Asks text n → DigitsOverride old (some text) (min n 200) []
  | ignored {text : String} {ds : List Char} {fault : Unsigned.Fault} :
      (∀ n, ¬ Asks text n) → Trimmed text.toList ds →
      (∀ f : Unsigned.Fault, f.Explains ds ↔ f = fault) →
      DigitsOverride old (some text) old [digitsNotice text fault]

theorem asks_iff (text : String) (n : Nat) :
    Asks text n ↔ Unsigned.parse (trim text.toList) = .ok n := by
  rw [Unsigned.parse_eq_ok_iff, Asks]
  simp only [trimmed_iff, exists_eq_left]
  rfl

def notices (ws : List Warning) : List Entry := ws.map fun w => (Event.overrideIgnored w).entry

def policyPart (s : Settings) (text : Option String) : Settings × List Warning :=
  text.elim (s, []) s.overridePolicy

def digitsPart (s : Settings) (text : Option String) : Settings × List Warning :=
  text.elim (s, []) s.overrideDigits

theorem notices_digitsIgnored (text : String) (fault : Unsigned.Fault) :
    notices [.digitsIgnored text fault] = [digitsNotice text fault] := by
  cases fault <;> rfl

theorem overrides_eq (s : Settings) (policy digits : Option String) :
    s.overrides policy digits =
      (((s.policyPart policy).1.digitsPart digits).1,
        (s.policyPart policy).2 ++ ((s.policyPart policy).1.digitsPart digits).2) := rfl

/-- The policy text leaves the number of decimals as it is. -/
theorem policyPart_digits (s : Settings) (text : Option String) :
    (s.policyPart text).1.digits = s.digits := by
  cases text with
  | none => rfl
  | some text =>
    simp only [policyPart, Option.elim_some, overridePolicy]
    cases Policy.read text <;> rfl

/-- The text with the number of decimals leaves the policy as it is. -/
theorem digitsPart_policy (s : Settings) (text : Option String) :
    (s.digitsPart text).1.policy = s.policy := by
  cases text with
  | none => rfl
  | some text =>
    simp only [digitsPart, Option.elim_some, overrideDigits]
    cases Unsigned.parse (trim text.toList) <;> rfl

theorem policyPart_decided (s : Settings) (text : Option String) :
    PolicyOverride s.policy text (s.policyPart text).1.policy (notices (s.policyPart text).2) := by
  cases text with
  | none => exact .absent
  | some text =>
    simp only [policyPart, Option.elim_some, overridePolicy]
    cases hr : Policy.read text with
    | ok p => exact .named ((Policy.read_eq_ok_iff text p).1 hr)
    | error e =>
      obtain rfl := Policy.read_eq_error hr
      apply PolicyOverride.ignored
      intro p hp
      rw [(Policy.read_eq_ok_iff text p).2 hp] at hr
      cases hr

theorem digitsPart_decided (s : Settings) (text : Option String) :
    DigitsOverride s.digits text (s.digitsPart text).1.digits (notices (s.digitsPart text).2) := by
  cases text with
  | none => exact .absent
  | some text =>
    simp only [digitsPart, Option.elim_some, overrideDigits]
    cases hr : Unsigned.parse (trim text.toList) with
    | ok n => exact .asked ((asks_iff text n).2 hr)
    | error fault =>
      have hfault := Unsigned.explains_of_parse hr
      rw [notices_digitsIgnored]
      apply DigitsOverride.ignored _ (trimmed_trim text.toList)
      · intro f
        constructor
        · intro hf
          exact hf.unique hfault
        · intro hf
          exact hf ▸ hfault
      · intro n hn
        rw [(asks_iff text n).1 hn] at hr
        cases hr

/-- A step in the life of settings: made anew, from a policy and a number of decimals or as one
of the two fixed ones, or changed. -/
inductive Change where
  | new (p : Policy) (n : Nat)
  | standard
  | strict
  | setDigits (n : Nat)
  | setPolicy (p : Policy)
  | overrides (policy digits : Option String)

def change (s : Settings) : Change → Settings
  | .new p n => (standard.withPolicy p).withDigits n
  | .standard => standard
  | .strict => strict
  | .setDigits n => s.withDigits n
  | .setPolicy p => s.withPolicy p
  | .overrides policy digits => (s.overrides policy digits).1

/-- The number of decimals that a change asks for, if it does. -/
def Change.asked? : Change → Option Nat
  | .new _ n | .setDigits n => some n
  | .standard | .strict => some 20
  | .setPolicy _ => none
  | .overrides _ digits => digits.bind fun text => (Unsigned.parse (trim text.toList)).toOption

def run (s : Settings) (cs : List Change) : Settings := cs.foldl change s

theorem digits_eq_min (s : Settings) : s.digits = min s.digits maxDigits :=
  (Nat.min_eq_left s.digits_le).symm

theorem digitsPart_digits (s : Settings) (text : Option String) :
    (s.digitsPart text).1.digits =
      min ((text.bind fun t => (Unsigned.parse (trim t.toList)).toOption).getD s.digits)
        maxDigits := by
  cases text with
  | none => exact s.digits_eq_min
  | some text =>
    simp only [digitsPart, Option.elim_some, overrideDigits, Option.bind_some]
    cases Unsigned.parse (trim text.toList) with
    | ok n => rfl
    | error fault => exact s.digits_eq_min

theorem change_digits (s : Settings) (c : Change) :
    (s.change c).digits = min (c.asked?.getD s.digits) maxDigits := by
  cases c with
  | new p n => rfl
  | standard => rfl
  | strict => rfl
  | setDigits n => rfl
  | setPolicy p => exact s.digits_eq_min
  | overrides policy digits =>
    rw [change, overrides_eq, digitsPart_digits, policyPart_digits]
    rfl

theorem run_digits (s : Settings) (cs : List Change) :
    (s.run cs).digits =
      min ((cs.filterMap Change.asked?).getLast?.getD s.digits) maxDigits := by
  induction cs using List.reverseRecOn with
  | nil => exact s.digits_eq_min
  | append_singleton cs c ih =>
    have hsnoc : s.run (cs ++ [c]) = (s.run cs).change c := by simp [run]
    rw [hsnoc, change_digits, List.filterMap_append]
    cases hc : c.asked? with
    | none => simp [hc, ih]
    | some n => simp [hc]

/-- Each of the two overrides takes effect, or is left out with a notice of its own, as its
text alone decides, and the notices are those of the policy before those of the number of
decimals. Whatever settings go through, their number of decimals is the last one asked for,
or the one at the start, and never above 200. -/
theorem overrides_decided (s : Settings) (policy digits : Option String) (cs : List Change) :
    (∃ es fs, notices (s.overrides policy digits).2 = es ++ fs ∧
        PolicyOverride s.policy policy (s.overrides policy digits).1.policy es ∧
        DigitsOverride s.digits digits (s.overrides policy digits).1.digits fs) ∧
      (s.run cs).digits = min ((cs.filterMap Change.asked?).getLast?.getD s.digits) 200 ∧
      (s.run cs).digits ≤ 200 := by
  refine ⟨⟨notices (s.policyPart policy).2, notices ((s.policyPart policy).1.digitsPart digits).2,
    ?_, ?_, ?_⟩, s.run_digits cs, ?_⟩
  · rw [overrides_eq]
    exact List.map_append
  · rw [overrides_eq, digitsPart_policy]
    exact s.policyPart_decided policy
  · rw [overrides_eq, ← s.policyPart_digits policy]
    exact digitsPart_decided _ digits
  · rw [run_digits]
    exact Nat.min_le_right _ _

end Settings

end ExactCalc
