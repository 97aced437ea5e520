import WordCalc.CommandLine.Report

/-!
The program.

Reading lines and writing text is all that happens here. Evaluation writes what
it reports in the order in which it happens, line by line if there is a prompt;
every other run is its report, written to the two streams. The right end of a
prompt is left to terminals that can place it.
-/

namespace WordCalc.CommandLine

private partial def readAll (stream : IO.FS.Stream) (soFar : String := "") : IO String := do
  let line ← stream.getLine
  if line.isEmpty then return soFar else readAll stream (soFar ++ line)

private def write (report : Report) : IO UInt32 := do
  IO.print report.stdout
  for error in report.usageError do
    IO.eprintln error.report
  return report.status.toUInt32

private def tell (verbose : Bool) : Event → IO Unit
  | .printed line => IO.println line
  | .failed fault => do
      if verbose then IO.eprintln fault.trace
      IO.eprintln (complaint fault)

/-- Asks for lines until there are no more, or until a quit when evaluating. -/
private partial def converse (options : Options) (prompt : String) (state : State) :
    IO Unit := do
  let stdout ← IO.getStdout
  stdout.putStr prompt
  stdout.flush
  let line ← (← IO.getStdin).getLine
  if line.isEmpty then return
  match options.task with
  | .evaluate =>
      let evaluation := state.evaluate (Text.tokens line)
      evaluation.events.forM (tell options.verbose)
      unless evaluation.finished do
        converse options prompt evaluation.state
  | .list | .showGrammar =>
      (Text.tokens line).forM fun token => IO.println (Listing.line token)
      converse options prompt state

def runProgram (arguments : List String) : IO UInt32 := do
  let stdin ← IO.getStdin
  let inputIsTerminal ← stdin.isTty
  let outputIsTerminal ← (← IO.getStdout).isTty
  let surroundings : Surroundings := { inputIsTerminal, outputIsTerminal }
  match Options.ofArguments surroundings.edition arguments with
  | .error _ => write (report arguments surroundings)
  | .ok options =>
      match options.task, options.prompting surroundings.atTerminal with
      | .evaluate, some prompt =>
          converse options prompt .initial
          return 0
      | .list, some prompt =>
          IO.println Listing.heading
          converse options prompt .initial
          return 0
      | task, _ =>
          let standardInput ←
            if options.readsStandardInput surroundings.atTerminal then readAll stdin
            else pure ""
          let surroundings := { surroundings with standardInput }
          if task = .evaluate then
            let evaluation := State.initial.evaluateLines (options.input surroundings)
            evaluation.events.forM (tell options.verbose)
            return 0
          else write (report arguments surroundings)

end WordCalc.CommandLine

def main (arguments : List String) : IO UInt32 :=
  WordCalc.CommandLine.runProgram arguments
