import WordCalc.CommandLine.Arguments
import WordCalc.Evaluation

/-!
What a run of the program comes to.

Given the arguments, and the surroundings the program finds itself in, the
report says everything that can be seen from outside: what is written to both
streams, which prompts are shown, and the status. It is a function of its two
arguments; `WordCalc.Main` acts it out.
-/

namespace WordCalc.CommandLine

inductive TypingEnd
  | endOfInput
  | interrupt
  deriving DecidableEq

def TypingEnd.status : TypingEnd → Nat
  | .endOfInput => 0
  | .interrupt => 1

structure Surroundings where
  edition : Edition := .early
  standardInput : String := ""
  inputIsTerminal : Bool := false
  outputIsTerminal : Bool := false
  typed : List String := []
  typingEnd : TypingEnd := .endOfInput

def Surroundings.atTerminal (surroundings : Surroundings) : Bool :=
  surroundings.inputIsTerminal && surroundings.outputIsTerminal

/-- A prompt as it is shown: its text, what stands at the right end of the line,
and the text in front of continued lines. -/
structure Prompt where
  text : String
  right : Option String
  continuation : String
  deriving DecidableEq

namespace Prompt

def ofText (text : String) (right : Option String) : Prompt :=
  { text, right, continuation := String.ofList (text.toList.map fun _ => ' ') }

end Prompt

/-- The top of the stack as the right end of a prompt shows it: in the output
radix, without the blanks that fill its column, or nothing if there is none. -/
def rightPrompt (state : State) : String :=
  match state.top? with
  | some value =>
      String.ofList ((state.radix.format value).toList.dropWhile (· == ' '))
  | none => ""

structure Report where
  status : Nat := 0
  stdout : String := ""
  stderr : String := ""
  usageError : Option UsageError := none
  traced : List String := []
  prompts : List Prompt := []
  deriving DecidableEq

def unlines (lines : List String) : String :=
  String.join (lines.map (· ++ "\n"))

def complaint (fault : Fault) : String :=
  "Error: " ++ fault.message

/-- The help, in lines of at most 80 characters. -/
def helpLines : List String :=
  ["usage: " ++ programName ++ " [-h] [-v] [-e ... | -p [PROMPT]] [-G | -D]",
   "",
   "Integer RPN calculator",
   "",
   "options:",
   "  -h, --help            show this help message and exit",
   "  -v, --verbose         show tracebacks of errors",
   "  -e ..., --expression ...",
   "                        evaluate these lines instead",
   "  -p [PROMPT], --prompt [PROMPT]",
   "  -G, --raw-grammar",
   "  -D, --dump"]

namespace Options

def input (options : Options) (surroundings : Surroundings) : List String :=
  match options.lines with
  | some lines => lines
  | none =>
      match options.prompting surroundings.atTerminal with
      | some _ => surroundings.typed
      | none => Text.lines surroundings.standardInput

def reportEvaluation (options : Options) (surroundings : Surroundings) : Report :=
  let input := options.input surroundings
  let evaluation := State.initial.evaluateLines input
  let prompting := options.prompting surroundings.atTerminal
  { status :=
      if prompting.isSome && !evaluation.finished then surroundings.typingEnd.status else 0
    stdout := unlines evaluation.lines
    stderr := unlines (evaluation.faults.map complaint)
    traced := if options.verbose then evaluation.faults.map Fault.trace else []
    prompts :=
      match prompting with
      | some text =>
          (State.initial.asking input).map fun state => .ofText text (some (rightPrompt state))
      | none => [] }

/-- The report of listing the tokens of the input. All lines are read, and the
prompts have no right end. -/
def reportListing (options : Options) (surroundings : Surroundings) : Report :=
  let input := options.input surroundings
  let stdout := unlines (Listing.ofLines input)
  match options.prompting surroundings.atTerminal with
  | some text =>
      { status := surroundings.typingEnd.status
        stdout
        prompts := List.replicate (input.length + 1) (.ofText text none) }
  | none => { stdout }

end Options

def report (arguments : List String) (surroundings : Surroundings) : Report :=
  match Options.ofArguments surroundings.edition arguments with
  | .error .help => { stdout := unlines helpLines }
  | .error (.usage error) => { status := 2, usageError := some error }
  | .ok options =>
      match options.task with
      | .showGrammar => { stdout := unlines Literal.grammar }
      | .list => options.reportListing surroundings
      | .evaluate => options.reportEvaluation surroundings

section Tasks

variable {arguments : List String} {surroundings : Surroundings} {options : Options}

theorem report_of_evaluate
    (read : Options.ofArguments surroundings.edition arguments = .ok options)
    (evaluates : options.task = .evaluate) :
    report arguments surroundings = options.reportEvaluation surroundings := by
  rw [report, read]
  simp only [evaluates]

theorem report_of_list
    (read : Options.ofArguments surroundings.edition arguments = .ok options)
    (lists : options.task = .list) :
    report arguments surroundings = options.reportListing surroundings := by
  rw [report, read]
  simp only [lists]

theorem report_of_showGrammar
    (read : Options.ofArguments surroundings.edition arguments = .ok options)
    (shows : options.task = .showGrammar) :
    report arguments surroundings = { stdout := unlines Literal.grammar } := by
  rw [report, read]
  simp only [shows]

theorem report_of_usage {error : UsageError}
    (refused : Options.ofArguments surroundings.edition arguments = .error (.usage error)) :
    report arguments surroundings = { status := 2, usageError := some error } := by
  rw [report, refused]

end Tasks

end WordCalc.CommandLine
