import ExactCalc.Journal.Record
import ExactCalc.Proofs.Acceptance
import ExactCalc.Proofs.StepOrder
import ExactCalc.Proofs.ToldSteps

/-!
# The journal tells what happened

The journal of an evaluation is an announcement, a line for every operation that was carried
out, and one entry that says how it ended. The operations are those of the postfix order, up
to the one that fails if one does, so a failed evaluation leaves the working that its outcome
no longer shows. An outside caller gets none of this; its refusal is told to the journal only.
-/

set_option autoImplicit false

namespace ExactCalc

open Token

namespace Journal

def working (s : Step) : Entry where
  level := .trace
  target := "calculatrice_infixe::noyau::reduction"
  message := "réduction"
  fields := [⟨"etape", s.text, false⟩]

end Journal

end ExactCalc
