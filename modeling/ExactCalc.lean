import ExactCalc.Calculator
import ExactCalc.Evaluation
import ExactCalc.Expression
import ExactCalc.Failure
import ExactCalc.Journal.Emission
import ExactCalc.Journal.Event
import ExactCalc.Journal.Record
import ExactCalc.Keypad
import ExactCalc.Machine
import ExactCalc.Numeral
import ExactCalc.Policy
import ExactCalc.Postfix
import ExactCalc.Proofs.Acceptance
import ExactCalc.Proofs.Halting
import ExactCalc.Proofs.OperandSupply
import ExactCalc.Proofs.Outcome
import ExactCalc.Proofs.ParseTree
import ExactCalc.Proofs.PostfixOrder
import ExactCalc.Proofs.TreeReduction
import ExactCalc.Reading
import ExactCalc.Reduction
import ExactCalc.Scan
import ExactCalc.Service
import ExactCalc.Session
import ExactCalc.Settings
import ExactCalc.Startup
import ExactCalc.Step
import ExactCalc.Text.Blank
import ExactCalc.Text.Printable
import ExactCalc.Text.Quoted
import ExactCalc.Text.Range
import ExactCalc.Text.Unsigned
import ExactCalc.Token
import ExactCalc.Window
import ExactCalc.Proofs.PolicyAgreement
import ExactCalc.Proofs.TokenText
import ExactCalc.Proofs.KeypadSpacing
import ExactCalc.Proofs.DisplayHistory
import ExactCalc.Proofs.KeypadEntry
import ExactCalc.Proofs.EnterKey
import ExactCalc.Proofs.StepOrder
import ExactCalc.Proofs.ToldSteps
import ExactCalc.Proofs.FaithfulJournal
import ExactCalc.Proofs.OverrideTexts
import ExactCalc.Proofs.Overrides
import ExactCalc.Proofs.Digits
import ExactCalc.Proofs.DecimalText
import ExactCalc.Proofs.Truncation
import ExactCalc.Proofs.JoinedLines
import ExactCalc.Proofs.Contraction
import ExactCalc.Proofs.OperandFlow
import ExactCalc.Proofs.ExactText
import ExactCalc.Proofs.Precision
import ExactCalc.Proofs.Unambiguous
import ExactCalc.Proofs.WaitingOperators
