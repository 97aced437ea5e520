import WordCalc.Text

/-!
The arguments of the command line, and the options that they set.

Every flag has a letter and a word: `-v` and `--verbose` are one flag. An
argument is an operand, a flag with the characters that follow it, or not known
at all. Letters of flags may be joined behind one hyphen, and a text for the last
of them may be joined on as well. Reading the arguments from left to right gives
the requests that they make, in order.

There are two editions of this reading. They differ only in arguments that hold
more than a flag: in the equals sign behind a letter, in a tail that names no
flag, and in `--` where it is joined to the flag for the prompt.

Requests are taken in the order in which the arguments make them. Lines cannot
be given together with a prompt, and the grammar cannot be asked for together
with a listing; the first request that contradicts an earlier one ends the
matter. Repeating a request is no contradiction. Arguments that nothing has a
use for are an error too, but only if there is no other.
-/

namespace WordCalc.CommandLine

/-- In the early edition an equals sign behind the first letter of an argument is
passed over, and behind another letter it is a character like any other. A tail
that names no flag is refused, and a joined `--` stands for no text. In the
revised edition an equals sign assigns what follows it, whichever letter it is
behind. A tail that names no flag is not recognized, and `--` is a text. -/
inductive Edition
  | early
  | revised
  deriving DecidableEq

inductive Flag
  | help
  | verbose
  | expression
  | prompt
  | grammar
  | listing
  deriving DecidableEq

namespace Flag

def all : List Flag :=
  [.help, .verbose, .expression, .prompt, .grammar, .listing]

def letter : Flag → Char
  | .help => 'h'
  | .verbose => 'v'
  | .expression => 'e'
  | .prompt => 'p'
  | .grammar => 'G'
  | .listing => 'D'

def word : Flag → String
  | .help => "help"
  | .verbose => "verbose"
  | .expression => "expression"
  | .prompt => "prompt"
  | .grammar => "raw-grammar"
  | .listing => "dump"

def takesText : Flag → Bool
  | .expression | .prompt => true
  | .help | .verbose | .grammar | .listing => false

def title (flag : Flag) : String :=
  "-" ++ String.singleton flag.letter ++ "/--" ++ flag.word

def ofLetter? (c : Char) : Option Flag :=
  all.find? fun flag => flag.letter == c

def beginningWith (beginning : List Char) : List Flag :=
  all.filter fun flag => beginning.isPrefixOf flag.word.toList

end Flag

def programName : String := "irpn"

inductive UsageError
  | ambiguous (argument : String)
  | conflict (later earlier : Flag)
  | needlessText (flag : Flag) (text : String)
  | unrecognized (arguments : List String)
  deriving DecidableEq

namespace UsageError

def message : UsageError → String
  | .ambiguous argument =>
      "ambiguous option: " ++ argument ++ " could match " ++
        String.intercalate ", " (Flag.all.map fun flag => "--" ++ flag.word)
  | .conflict later earlier =>
      "argument " ++ later.title ++ ": not allowed with argument " ++ earlier.title
  | .needlessText flag text =>
      "argument " ++ flag.title ++ ": ignored explicit argument " ++ Text.quoted text
  | .unrecognized arguments =>
      "unrecognized arguments: " ++ String.intercalate " " arguments

def report (error : UsageError) : String :=
  programName ++ ": error: " ++ error.message

/-- The last line of what is written about the error. It is the whole report
unless an argument brings a line feed into it. -/
def lastLine (error : UsageError) : String :=
  String.ofList (error.report.toList.reverse.takeWhile (· != '\n')).reverse

end UsageError

/-- What an argument is by itself. A flag may be followed in the same argument
by a text that is meant for it, or by a tail, which can also hold the letters of
further flags. -/
inductive Argument
  | operand
  | unknown
  | ambiguous
  | assigned (flag : Flag) (text : List Char)
  | named (flag : Flag) (tail : List Char)
  deriving DecidableEq

namespace Argument

/-- Whether the characters behind a hyphen make a negative decimal number, with
or without a fraction. A line feed may close it. -/
def isNumeral (chars : List Char) : Bool :=
  let number := if chars.getLast? = some '\n' then chars.dropLast else chars
  match number.dropWhile Text.isDecimalDigit with
  | [] => !number.isEmpty
  | '.' :: fraction => !fraction.isEmpty && fraction.all Text.isDecimalDigit
  | _ => false

def withoutFlag (tail : List Char) : Argument :=
  if isNumeral tail || tail.contains ' ' then .operand else .unknown

def withLetter (edition : Edition) (flag : Flag) : List Char → Argument
  | '=' :: text =>
      match edition, text with
      | .early, c :: tail => .named flag (c :: tail)
      | .early, [] | .revised, _ => .assigned flag text
  | tail => .named flag tail

/-- Reads an argument. A word may be shortened as long as one flag only begins
that way, and an equals sign ends it and assigns what follows. A lone hyphen is an
operand, and so are negative numbers and texts with blanks that name no flag. -/
def read (edition : Edition) : List Char → Argument
  | '-' :: '-' :: rest =>
      match Flag.beginningWith (rest.takeWhile (· != '=')) with
      | [] => withoutFlag ('-' :: rest)
      | [flag] =>
          match rest.dropWhile (· != '=') with
          | [] => .named flag []
          | _ :: text => .assigned flag text
      | _ => .ambiguous
  | '-' :: letter :: rest =>
      match Flag.ofLetter? letter with
      | some flag => withLetter edition flag rest
      | none => withoutFlag (letter :: rest)
  | _ => .operand

end Argument

/-! ### Requests -/

inductive Request
  | help
  | verbose
  | grammar
  | listing
  | lines (input : List String)
  | prompt (text : String)
  | stray (argument : String)
  | refused (error : UsageError)
  deriving DecidableEq

def defaultPrompt : String := "> "

def ownRequests : Flag → List Request
  | .help => [.help]
  | .verbose => [.verbose]
  | .grammar => [.grammar]
  | .listing => [.listing]
  | .expression | .prompt => []

inductive TextFlag
  | lines (joined : Option String)
  | prompt (joined : Option String)
  deriving DecidableEq

abbrev Reading := List Request × Option TextFlag

def lastFlag : Flag → Option (List Char) → Except UsageError Reading
  | .expression, joined => .ok ([], some (.lines (joined.map String.ofList)))
  | .prompt, joined => .ok ([], some (.prompt (joined.map String.ofList)))
  | flag, none => .ok (ownRequests flag, none)
  | flag, some text => .error (.needlessText flag (String.ofList text))

/-- What becomes of a tail that names no flag. A hyphen is refused in it by both
editions. -/
def leftOver (edition : Edition) (flag : Flag) (tail : List Char) : Except UsageError Reading :=
  if edition = .early ∨ tail.head? = some '-' then
    .error (.needlessText flag (String.ofList tail))
  else .ok (ownRequests flag ++ [.stray (String.ofList ('-' :: tail))], none)

def assigned? (edition : Edition) : List Char → Option (List Char)
  | '=' :: text =>
      match edition with
      | .early => none
      | .revised => some text
  | _ => none

/-- What a flag and its tail ask for. The tail of a flag that takes a text is
that text; the tail of any other flag has to go on with the letter of a flag. -/
def cluster (edition : Edition) : Flag → List Char → Except UsageError Reading
  | flag, [] => lastFlag flag none
  | flag, letter :: rest =>
      match flag.takesText, Flag.ofLetter? letter with
      | true, _ => lastFlag flag (some (letter :: rest))
      | false, none => leftOver edition flag (letter :: rest)
      | false, some next =>
          let further :=
            match assigned? edition rest with
            | some text => lastFlag next (some text)
            | none => cluster edition next rest
          further.map fun (requests, textFlag) => (ownRequests flag ++ requests, textFlag)

def separator : String := "--"

def joinedPrompt (edition : Edition) (text : String) : String :=
  if edition = .early ∧ text = separator then defaultPrompt else text

def isOperand (edition : Edition) (argument : String) : Bool :=
  Argument.read edition argument.toList == .operand

def Argument.reading? (edition : Edition) : Argument → Option (Except UsageError Reading)
  | .assigned flag text => some (lastFlag flag (some text))
  | .named flag tail => some (cluster edition flag tail)
  | .operand | .unknown | .ambiguous => none

/-- The requests of arguments, read from left to right. The flag for lines takes
all arguments behind it, unless a text is joined to it; the flag for the prompt
takes the next one if that is an operand. -/
def requests (edition : Edition) : List String → List Request
  | [] => []
  | argument :: rest =>
      match (Argument.read edition argument.toList).reading? edition with
      | none => .stray argument :: requests edition rest
      | some (.error error) => [.refused error]
      | some (.ok (leading, none)) => leading ++ requests edition rest
      | some (.ok (leading, some (.lines none))) => leading ++ [.lines rest]
      | some (.ok (leading, some (.lines (some text)))) =>
          leading ++ .lines [text] :: requests edition rest
      | some (.ok (leading, some (.prompt (some text)))) =>
          leading ++ .prompt (joinedPrompt edition text) :: requests edition rest
      | some (.ok (leading, some (.prompt none))) =>
          match rest with
          | [] => leading ++ [.prompt defaultPrompt]
          | next :: others =>
              if isOperand edition next then leading ++ .prompt next :: requests edition others
              else leading ++ .prompt defaultPrompt :: requests edition (next :: others)

/-- The requests of a whole command line. An ambiguous word refuses the command
line before anything else is looked at. Nothing has a use for what stands from
the separator on. -/
def Request.ofArguments (edition : Edition) (arguments : List String) : List Request :=
  let leading := arguments.takeWhile (· != separator)
  let trailing := arguments.dropWhile (· != separator)
  match leading.find? fun argument => Argument.read edition argument.toList == .ambiguous with
  | some argument => [.refused (.ambiguous argument)]
  | none => requests edition leading ++ trailing.map .stray

inductive Task
  | evaluate
  | list
  | showGrammar
  deriving DecidableEq

structure Options where
  verbose : Bool := false
  task : Task := .evaluate
  lines : Option (List String) := none
  prompt : Option String := none
  stray : List String := []
  deriving DecidableEq

inductive Stop
  | help
  | usage (error : UsageError)
  deriving DecidableEq

namespace Options

def take (options : Options) : Request → Except Stop Options
  | .help => .error .help
  | .verbose => .ok { options with verbose := true }
  | .grammar =>
      if options.task = .list then .error (.usage (.conflict .grammar .listing))
      else .ok { options with task := .showGrammar }
  | .listing =>
      if options.task = .showGrammar then .error (.usage (.conflict .listing .grammar))
      else .ok { options with task := .list }
  | .lines input =>
      if options.prompt.isSome then .error (.usage (.conflict .expression .prompt))
      else .ok { options with lines := some input }
  | .prompt text =>
      if options.lines.isSome then .error (.usage (.conflict .prompt .expression))
      else .ok { options with prompt := some text }
  | .stray argument => .ok { options with stray := options.stray ++ [argument] }
  | .refused error => .error (.usage error)

def ofArguments (edition : Edition) (arguments : List String) : Except Stop Options := do
  let options ← (Request.ofArguments edition arguments).foldlM take {}
  if options.stray.isEmpty then .ok options
  else .error (.usage (.unrecognized options.stray))

/-- The prompt that asks for lines, if lines are asked for: the given one unless
it is empty, and otherwise the default one if the user sits at a terminal. -/
def prompting (options : Options) (atTerminal : Bool) : Option String :=
  match options.lines, options.prompt with
  | some _, _ => none
  | none, some text =>
      if text ≠ "" then some text else if atTerminal then some defaultPrompt else none
  | none, none => if atTerminal then some defaultPrompt else none

def readsStandardInput (options : Options) (atTerminal : Bool) : Bool :=
  options.task ≠ .showGrammar && options.lines.isNone && (options.prompting atTerminal).isNone

end Options

end WordCalc.CommandLine
