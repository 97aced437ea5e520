import WordCalc.CommandLine.Report
import WordCalc.Proofs.Transcript

/-!
Traces, and nothing else.

To ask for traces in front of all other arguments sets one option and leaves the
others, and whatever is wrong with the arguments, as they are. Only an evaluation
looks at that option, and only to add the traces: there is one for every line of
complaint, in the same order, for the same fault.
-/

namespace WordCalc.CommandLine

namespace Options

end Options

def Report.untraced (shown : Report) : Report :=
  { shown with traced := [] }

end WordCalc.CommandLine
