import WordCalc.CommandLine.Report
import WordCalc.Proofs.Arguments
import WordCalc.Proofs.Spacing
import WordCalc.Proofs.Transcript

/-!
One answer, whatever way the tokens come.

Tokens can be given to the program as arguments, on its standard input or at the
prompt, and each of these ways leaves open how they are cut into lines. What is
written is that of one machine that is fed with the tokens up to the first quit.
-/

namespace WordCalc.CommandLine

/-- The ways in which tokens come to the program, with the arguments and the
surroundings that belong to them. Which arguments are handed over as lines says
`handedOver_iff`. -/
inductive Delivers (tokens : List String) : List String → Surroundings → Prop
  | arguments {lines : List String} {surroundings : Surroundings} :
      HandedOver surroundings.edition lines → Text.LinesSetOut lines tokens →
        Delivers tokens ("-e" :: lines) surroundings
  | standardInput {surroundings : Surroundings} :
      surroundings.atTerminal = false → Text.SetsOut surroundings.standardInput tokens →
        Delivers tokens [] surroundings
  | typed {arguments : List String} {surroundings : Surroundings} :
      AsksForLines surroundings.edition surroundings.atTerminal arguments →
        surroundings.typingEnd = .endOfInput →
        Text.LinesSetOut surroundings.typed tokens → Delivers tokens arguments surroundings

def Report.unprompted (report : Report) : Report :=
  { report with prompts := [] }

/-- The report of steps: the lines that they print on the one stream, and one
line for each step that fails on the other. -/
def Report.ofOutcomes (outcomes : List Outcome) : Report :=
  { status := 0
    stdout := unlines (outcomes.flatMap Outcome.lines)
    stderr := unlines ((outcomes.filterMap Outcome.fault?).map fun fault =>
      "Error: " ++ fault.message) }

private theorem Delivers.evaluation {tokens arguments : List String} {surroundings : Surroundings}
    (delivers : Delivers tokens arguments surroundings) :
    ∃ options : Options, Options.ofArguments surroundings.edition arguments = .ok options ∧
      options.task = .evaluate ∧ options.verbose = false ∧
      (options.input surroundings).flatMap Text.tokens = tokens ∧
      ((options.prompting surroundings.atTerminal).isSome = true →
        surroundings.typingEnd = .endOfInput) := by
  cases delivers with
  | arguments handedOver setOut =>
      exact ⟨_, handedOver.options, rfl, rfl, (Text.flatMap_tokens_eq_iff _ _).mpr setOut,
        fun prompting => by cases prompting⟩
  | standardInput noTerminal setOut =>
      have silent : ({} : Options).prompting surroundings.atTerminal = none := by
        rw [noTerminal]
        rfl
      refine ⟨{}, rfl, rfl, rfl, ?_, ?_⟩
      · have input : ({} : Options).input surroundings = Text.lines surroundings.standardInput := by
          rw [Options.input, silent]
        rw [input, Text.flatMap_tokens_lines]
        exact (Text.tokens_eq_iff _ _).mpr setOut
      · rw [silent]
        intro prompting
        cases prompting
  | typed asks ended setOut =>
      obtain ⟨prompt, options, prompting⟩ := asks.options
      refine ⟨{ prompt }, options, rfl, rfl, ?_, fun _ => ended⟩
      obtain ⟨text, shown⟩ := Option.isSome_iff_exists.mp prompting
      have input : ({ prompt } : Options).input surroundings = surroundings.typed := by
        rw [Options.input, shown]
      rw [input]
      exact (Text.flatMap_tokens_eq_iff _ _).mpr setOut

private theorem unprompted_reportEvaluation {options : Options} {surroundings : Surroundings}
    (untraced : options.verbose = false)
    (ended : (options.prompting surroundings.atTerminal).isSome = true →
      surroundings.typingEnd = .endOfInput) :
    let tokens := (options.input surroundings).flatMap Text.tokens
    (options.reportEvaluation surroundings).unprompted =
      .ofOutcomes (State.initial.outcomes ((upToQuit tokens).map .token)) := by
  intro tokens
  have status (finished : Bool) :
      (if (options.prompting surroundings.atTerminal).isSome && !finished then
        surroundings.typingEnd.status else 0) = 0 := by
    cases prompting : (options.prompting surroundings.atTerminal).isSome with
    | false => rfl
    | true => cases finished <;> rw [ended prompting] <;> rfl
  simp only [Report.unprompted, Options.reportEvaluation, untraced, status,
    State.evaluateLines_eq_evaluate, State.lines_evaluate, State.faults_evaluate]
  rfl

private theorem input_typed (options : Options) (surroundings : Surroundings) :
    (∀ typed, options.input { surroundings with typed } = typed) ∨
      ∀ typed, options.input { surroundings with typed } = options.input surroundings := by
  cases given : options.lines with
  | some lines =>
      refine .inr fun typed => ?_
      rw [Options.input, Options.input, given]
  | none =>
      cases asks : options.prompting surroundings.atTerminal with
      | some text =>
          refine .inl fun typed => ?_
          have asksToo : options.prompting
              ({ surroundings with typed } : Surroundings).atTerminal = some text := asks
          rw [Options.input, given, asksToo]
      | none =>
          refine .inr fun typed => ?_
          have asksToo : options.prompting
              ({ surroundings with typed } : Surroundings).atTerminal = none := asks
          rw [Options.input, Options.input, given, asks, asksToo]

private theorem reportEvaluation_behind_quit (options : Options) {surroundings : Surroundings}
    {lines behind : List String} (typed : surroundings.typed = lines ++ behind)
    (quits : "q" ∈ lines.flatMap Text.tokens) :
    options.reportEvaluation surroundings =
      options.reportEvaluation { surroundings with typed := lines } := by
  rcases input_typed options surroundings with isTyped | unrelated
  · have all : options.input surroundings = lines ++ behind := by
      rw [← typed]
      exact isTyped surroundings.typed
    simp only [Options.reportEvaluation, all, isTyped lines,
      State.evaluateLines_append_of_quit _ quits, State.asking_append_of_quit _ quits]
    rfl
  · simp only [Options.reportEvaluation, unrelated lines]
    rfl

private theorem unprompted_report {tokens arguments : List String} {surroundings : Surroundings}
    (delivers : Delivers tokens arguments surroundings) :
    (report arguments surroundings).unprompted =
      .ofOutcomes (State.initial.outcomes ((upToQuit tokens).map .token)) := by
  obtain ⟨options, read, evaluates, untraced, rfl, ended⟩ := delivers.evaluation
  rw [report_of_evaluate read evaluates]
  exact unprompted_reportEvaluation untraced ended

/-- However tokens are delivered, what is written is the report of one fresh
machine that is fed with them in order, up to and including the first `q`. A
token that fails stops none of the others. What stands behind a `q` makes no
difference, and lines that are typed behind one are not even asked for. -/
theorem report_of_delivered_tokens {tokens arguments : List String} {surroundings : Surroundings}
    (delivers : Delivers tokens arguments surroundings) :
    (report arguments surroundings).unprompted =
        .ofOutcomes (State.initial.outcomes ((upToQuit tokens).map .token)) ∧
      (∀ before behind other otherArguments otherSurroundings,
        tokens = before ++ "q" :: behind →
          Delivers (before ++ "q" :: other) otherArguments otherSurroundings →
            (report otherArguments otherSurroundings).unprompted =
              (report arguments surroundings).unprompted) ∧
      ∀ lines behind, surroundings.typed = lines ++ behind → "q" ∈ lines.flatMap Text.tokens →
        report arguments surroundings = report arguments { surroundings with typed := lines } := by
  refine ⟨unprompted_report delivers, ?_, ?_⟩
  · rintro before behind other otherArguments otherSurroundings rfl otherwise
    have quits : "q" ∈ before ++ ["q"] := List.mem_append_right before List.mem_cons_self
    have cut (after : List String) :
        upToQuit (before ++ "q" :: after) = upToQuit (before ++ ["q"]) := by
      rw [List.append_cons, upToQuit_append_of_mem quits]
    rw [unprompted_report delivers, unprompted_report otherwise, cut behind, cut other]
  · intro lines behind typed quits
    obtain ⟨options, read, evaluates, _⟩ := delivers.evaluation
    have shorter : report arguments { surroundings with typed := lines } =
        options.reportEvaluation { surroundings with typed := lines } :=
      report_of_evaluate read evaluates
    rw [report_of_evaluate read evaluates, shorter]
    exact reportEvaluation_behind_quit options typed quits

/-- The same tokens up to the quit, once on the standard input and once as
arguments. Two of them fail, and one of the others prints. -/
theorem report_of_delivered_tokens_with_faults :
    let surroundings : Surroundings := { standardInput := "2 0\r\n/ x9\np q 7" }
    let arguments := ["-e", "2 0", "/\tx9 p", "q"]
    Delivers ["2", "0", "/", "x9", "p", "q", "7"] [] surroundings ∧
      Delivers ["2", "0", "/", "x9", "p", "q"] arguments surroundings ∧
      (report [] surroundings).unprompted =
        { stdout := "                   0u64\n"
          stderr := "Error: Divide by zero\nError: Invalid input: 'x9'\n" } ∧
      (report arguments surroundings).unprompted = (report [] surroundings).unprompted := by
  intro surroundings arguments
  have delivers : Delivers ["2", "0", "/", "x9", "p", "q", "7"] [] surroundings :=
    .standardInput rfl ((Text.tokens_eq_iff _ _).mp (by decide +kernel))
  have otherwise : Delivers ["2", "0", "/", "x9", "p", "q"] arguments surroundings :=
    .arguments ((handedOver_iff _ _).mpr (by decide +kernel))
      ((Text.flatMap_tokens_eq_iff _ _).mp (by decide +kernel))
  obtain ⟨written, sameUpToQuit, _⟩ := report_of_delivered_tokens delivers
  refine ⟨delivers, otherwise, ?_,
    sameUpToQuit ["2", "0", "/", "x9", "p"] ["7"] [] _ _ rfl otherwise⟩
  rw [written]
  decide +kernel

end WordCalc.CommandLine
