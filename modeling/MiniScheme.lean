import MiniScheme.Text.UpperCase
import MiniScheme.Text.Visible
import MiniScheme.Binary64.Fixed
import MiniScheme.Binary64.Decimal
import MiniScheme.Error
import MiniScheme.Value.Basic
import MiniScheme.Value.Equal
import MiniScheme.Value.Print
import MiniScheme.Value.Stored
import MiniScheme.Read.Blank
import MiniScheme.Read.Atom
import MiniScheme.Read.Datum
import MiniScheme.Store
import MiniScheme.Machine
import MiniScheme.Eval.Primitive
import MiniScheme.Eval.Form
import MiniScheme.Session
import MiniScheme.Cli
import MiniScheme.Main
import MiniScheme.Proofs.Erase
import MiniScheme.Proofs.Display
import MiniScheme.Proofs.ReadStep
import MiniScheme.Proofs.RoundTrip
import MiniScheme.Proofs.Leaves
import MiniScheme.Proofs.ReadPlain
import MiniScheme.Proofs.Keeps
import MiniScheme.Proofs.Confine
import MiniScheme.Proofs.FrameEffect
import MiniScheme.Proofs.ErrorValues
import MiniScheme.Proofs.Similar
import MiniScheme.Proofs.RunAgreement
import MiniScheme.Proofs.Combination
import MiniScheme.Proofs.LetScope
import MiniScheme.Proofs.RunSplit
import MiniScheme.Proofs.TextEnd
import MiniScheme.Proofs.DerivedForms
import MiniScheme.Proofs.UpperToken
import MiniScheme.Proofs.LetterCase
import MiniScheme.Proofs.ExactArithmetic
import MiniScheme.Proofs.ComparisonChain
import MiniScheme.Proofs.IntegerNumeral
import MiniScheme.Proofs.ListEquality
import MiniScheme.Proofs.PartialEquivalence
import MiniScheme.Proofs.Canonical
import MiniScheme.Proofs.ListLaws
import MiniScheme.Proofs.QuotedEval
import MiniScheme.Proofs.FrameChain
import MiniScheme.Proofs.DottedList
import MiniScheme.Proofs.Output
import MiniScheme.Proofs.Report
