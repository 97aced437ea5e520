import WordCalc.Main
import WordCalc.Proofs.Run
import WordCalc.Proofs.Operands
import WordCalc.Proofs.Procedure
import WordCalc.Proofs.Expression
import WordCalc.Proofs.Positional
import WordCalc.Proofs.Denotation
import WordCalc.Proofs.ReadBack
import WordCalc.Proofs.Frame
import WordCalc.Proofs.Output
import WordCalc.Proofs.SignBlind
import WordCalc.Proofs.Spacing
import WordCalc.Proofs.Transcript
import WordCalc.Proofs.Arguments
import WordCalc.Proofs.Delivery
import WordCalc.Proofs.Storage
import WordCalc.Proofs.Trouble
import WordCalc.Proofs.StoredLists
import WordCalc.Proofs.Mechanism
import WordCalc.Proofs.Outcomes
import WordCalc.Proofs.Flags
import WordCalc.Proofs.Session
import WordCalc.Proofs.Columns
import WordCalc.Proofs.Wrapping
import WordCalc.Proofs.Division
import WordCalc.Proofs.PowersAndShifts
import WordCalc.Proofs.Bracketing
import WordCalc.Proofs.Carries
import WordCalc.Proofs.MaximalRuns
import WordCalc.Proofs.Retrieval
import WordCalc.Proofs.Printing
import WordCalc.Proofs.Conflicts
import WordCalc.Proofs.Invocation
import WordCalc.Proofs.Tracing
import WordCalc.Proofs.Residues
import WordCalc.Proofs.Pattern
import WordCalc.Proofs.TokenPattern
import WordCalc.Proofs.Alternatives
import WordCalc.Proofs.Unambiguity
