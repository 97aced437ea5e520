import WordCalc.CommandLine.Report
import WordCalc.Proofs.Conflicts
import WordCalc.Proofs.Flags

/-!
Command lines made of flags, with lines behind them.

In front there are flags in any order and number, each in either spelling; a
prompt may have its text with it. Behind them the flag for lines may follow, and
behind that one every argument is a line. Whether such a command line is refused,
and what the run comes to otherwise, is settled by the flags in front.
-/

namespace WordCalc.CommandLine

inductive Spelling
  | letter
  | word
  deriving DecidableEq

def Flag.spelled (flag : Flag) : Spelling → String
  | .letter => "-" ++ String.singleton flag.letter
  | .word => "--" ++ flag.word

private theorem read_spelled (edition : Edition) (flag : Flag) (spelling : Spelling) :
    Argument.read edition (flag.spelled spelling).toList = .named flag [] := by
  cases spelling with
  | letter => cases flag <;> rfl
  | word => cases flag <;> rfl

structure PromptText where
  text : String
  noHyphen : text.toList.head? ≠ some '-'

inductive Leading
  | verbose
  | grammar
  | listing
  | prompt (given : Option PromptText)

namespace Leading

def setting : Leading → Setting
  | .verbose => .verbose
  | .grammar => .grammar
  | .listing => .listing
  | .prompt none => .prompt defaultPrompt
  | .prompt (some given) => .prompt given.text

def flag (leading : Leading) : Flag :=
  leading.setting.flag

def arguments (spelling : Spelling) (leading : Leading) : List String :=
  leading.flag.spelled spelling ::
    match leading with
    | .prompt (some given) => [given.text]
    | .verbose | .grammar | .listing | .prompt none => []

end Leading

structure Invocation where
  leading : List (Spelling × Leading)
  lines : Option (Spelling × List String)

namespace Invocation

def front (invocation : Invocation) : List String :=
  invocation.leading.flatMap (fun item => item.2.arguments item.1) ++
    (invocation.lines.map fun lines => Flag.expression.spelled lines.1).toList

def given (invocation : Invocation) : List String :=
  (invocation.lines.map Prod.snd).getD []

def arguments (invocation : Invocation) : List String :=
  invocation.front ++ invocation.given

def flags (invocation : Invocation) : List Flag :=
  invocation.leading.map fun item => item.2.flag

def settings (invocation : Invocation) : List Setting :=
  invocation.leading.map (fun item => item.2.setting) ++
    (invocation.lines.map fun lines => Setting.lines lines.2).toList

end Invocation

section Requests

variable {edition : Edition} {argument : String} {flag : Flag}

private theorem requests_own (read : Argument.read edition argument.toList = .named flag [])
    (noText : flag.takesText = false) (rest : List String) :
    requests edition (argument :: rest) = ownRequests flag ++ requests edition rest := by
  rw [requests, read]
  cases flag with
  | help | verbose | grammar | listing => rfl
  | expression | prompt => cases noText

private theorem requests_lines
    (read : Argument.read edition argument.toList = .named .expression [])
    (rest : List String) : requests edition (argument :: rest) = [.lines rest] := by
  rw [requests, read]
  rfl

private theorem requests_prompt (read : Argument.read edition argument.toList = .named .prompt [])
    {text : String} (operand : isOperand edition text = true) (rest : List String) :
    requests edition (argument :: text :: rest) = .prompt text :: requests edition rest := by
  rw [requests, read]
  change (if isOperand edition text then Request.prompt text :: requests edition rest else _) = _
  rw [if_pos operand]

private theorem requests_bare_prompt
    (read : Argument.read edition argument.toList = .named .prompt [])
    {rest : List String} (noText : ∀ next ∈ rest.head?, isOperand edition next = false) :
    requests edition (argument :: rest) = .prompt defaultPrompt :: requests edition rest := by
  rw [requests, read]
  cases rest with
  | nil => rfl
  | cons next others =>
      change (if isOperand edition next then _
        else Request.prompt defaultPrompt :: requests edition (next :: others)) = _
      rw [noText next rfl, if_neg Bool.false_ne_true]

end Requests

private theorem isOperand_spelled (edition : Edition) (flag : Flag) (spelling : Spelling) :
    isOperand edition (flag.spelled spelling) = false := by
  rw [isOperand, read_spelled]
  rfl

private theorem requests_leading {edition : Edition} (spelling : Spelling) (leading : Leading)
    {rest : List String}     (noText : ∀ next ∈ rest.head?, isOperand edition next = false) :
    requests edition (leading.arguments spelling ++ rest) =
      leading.setting.request :: requests edition rest := by
  have read := read_spelled edition leading.flag spelling
  cases leading with
  | verbose | grammar | listing => exact requests_own read rfl rest
  | prompt given =>
      cases given with
      | some given =>
          exact requests_prompt read (isOperand_of_no_hyphen given.noHyphen edition) rest
      | none => exact requests_bare_prompt read noText

private theorem requests_arguments {edition : Edition} (items : List (Spelling × Leading))
    {rest : List String}     (noText : ∀ next ∈ rest.head?, isOperand edition next = false) :
    requests edition (items.flatMap (fun item => item.2.arguments item.1) ++ rest) =
      items.map (fun item => item.2.setting.request) ++ requests edition rest := by
  induction items with
  | nil => rfl
  | cons item others ih =>
      rw [List.flatMap_cons, List.append_assoc, requests_leading, ih, List.map_cons,
        List.cons_append]
      intro next first
      cases others with
      | nil => exact noText next first
      | cons other more =>
          obtain rfl : other.2.flag.spelled other.1 = next := Option.some.inj first
          exact isOperand_spelled edition _ _

private theorem Invocation.requests_eq (edition : Edition) (invocation : Invocation) :
    requests edition invocation.arguments = invocation.settings.map Setting.request := by
  obtain ⟨leading, lines⟩ := invocation
  rw [arguments, front, List.append_assoc, requests_arguments, settings, List.map_append,
    List.map_map]
  · cases lines with
    | none => rfl
    | some lines =>
        exact congrArg _ (requests_lines (read_spelled edition .expression lines.1) lines.2)
  · intro next first
    cases lines with
    | none => cases first
    | some lines =>
        obtain rfl : Flag.expression.spelled lines.1 = next := Option.some.inj first
        exact isOperand_spelled edition _ _

/-! ### Refusals -/

/-- A word with nothing in front of its equals sign. -/
abbrev IsNameless (argument : String) : Prop :=
  ['-', '-', '='] <+: argument.toList

private theorem plain_spelled (flag : Flag) (spelling : Spelling) :
    flag.spelled spelling ≠ "--" ∧ ¬ IsNameless (flag.spelled spelling) := by
  have clear : Argument.read .early (flag.spelled spelling).toList ≠ .ambiguous := by
    rw [read_spelled]
    exact Argument.noConfusion
  rw [ne_eq, Argument.read_eq_ambiguous_iff, not_or] at clear
  exact ⟨fun same => clear.1 (String.toList_inj.mpr same), clear.2⟩

namespace Invocation

variable {invocation : Invocation}

private theorem plain_front (invocation : Invocation) :
    ∀ argument ∈ invocation.front, argument ≠ "--" ∧ ¬ IsNameless argument := by
  obtain ⟨leading, lines⟩ := invocation
  rw [front, List.forall_mem_append]
  constructor
  · intro argument member
    obtain ⟨⟨spelling, item⟩, _, inItem⟩ := List.mem_flatMap.mp member
    rcases List.mem_cons.mp inItem with rfl | isText
    · exact plain_spelled item.flag spelling
    · cases item with
      | verbose | grammar | listing => cases isText
      | prompt given =>
          cases given with
          | none => cases isText
          | some given =>
              rw [List.mem_singleton.mp isText]
              exact plain_of_no_hyphen given.noHyphen
  · cases lines with
    | none => exact List.forall_mem_nil _
    | some lines => exact List.forall_mem_singleton.mpr (plain_spelled .expression lines.1)

/-- The errors with which a command line can be refused. A nameless word is
found before any flag is looked at. -/
inductive Refuses (invocation : Invocation) : UsageError → Prop
  | nameless {before behind : List String} {line : String} :
      invocation.given = before ++ line :: behind → (∀ other ∈ before, ¬ IsNameless other) →
        IsNameless line → Refuses invocation (.ambiguous line)
  | conflict {later earlier : Flag} :
      (∀ line ∈ invocation.given, ¬ IsNameless line) →
        LeftmostConflict (invocation.settings.map Setting.flag) later earlier →
          Refuses invocation (.conflict later earlier)

private theorem ofArguments_of_named (named : ∀ line ∈ invocation.given, ¬ IsNameless line)
    (noSeparator : ∀ line ∈ invocation.given, line ≠ "--") (edition : Edition) :
    Request.ofArguments edition invocation.arguments = invocation.settings.map Setting.request := by
  rw [ofArguments_eq_requests _ edition, requests_eq]
  rw [arguments, List.forall_mem_append]
  exact ⟨plain_front invocation, fun line member => ⟨noSeparator line member, named line member⟩⟩

theorem ofArguments_of_refuses {error : UsageError}
    (noSeparator : ∀ line ∈ invocation.given, line ≠ "--") (refuses : invocation.Refuses error)
    (edition : Edition) :
    Options.ofArguments edition invocation.arguments = .error (.usage error) := by
  rw [Options.ofArguments]
  cases refuses with
  | conflict named conflict =>
      rw [ofArguments_of_named named noSeparator, Options.foldlM_take_of_conflict conflict]
      rfl
  | @nameless before behind line given named nameless =>
      have refused : Request.ofArguments edition invocation.arguments =
          [.refused (.ambiguous line)] := by
        rw [given] at noSeparator
        rw [arguments, given, ← List.append_assoc]
        refine ofArguments_eq_refused ?_ ?_ nameless edition
        · rw [List.append_assoc, List.forall_mem_append]
          exact ⟨fun other member => (plain_front invocation other member).1, noSeparator⟩
        · rw [List.forall_mem_append]
          exact ⟨fun other member => (plain_front invocation other member).2, named⟩
      rw [refused]
      rfl

theorem ofArguments_of_compatible
    (noSeparator : ∀ line ∈ invocation.given, line ≠ "--")
    (named : ∀ line ∈ invocation.given, ¬ IsNameless line)
    (compatible : Compatible (invocation.settings.map Setting.flag)) (edition : Edition) :
    Options.ofArguments edition invocation.arguments = .ok (.setBy invocation.settings) := by
  rw [Options.ofArguments, ofArguments_of_named named noSeparator,
    Options.foldlM_take_of_compatible compatible]
  rfl

theorem exists_refuses_or_compatible (invocation : Invocation) :
    (∃ error, invocation.Refuses error) ∨
      (∀ line ∈ invocation.given, ¬ IsNameless line) ∧
        Compatible (invocation.settings.map Setting.flag) := by
  cases found : invocation.given.find? fun line => IsNameless line with
  | some line =>
      obtain ⟨nameless, before, behind, given, named⟩ := List.find?_eq_some_iff_append.mp found
      refine .inl ⟨_, .nameless given (fun other member => ?_) (of_decide_eq_true nameless)⟩
      simpa using named other member
  | none =>
      have named : ∀ line ∈ invocation.given, ¬ IsNameless line := by
        simpa using List.find?_eq_none.mp found
      rcases compatible_or_conflict (invocation.settings.map Setting.flag) with
        compatible | ⟨later, earlier, conflict⟩
      · exact .inr ⟨named, compatible⟩
      · exact .inl ⟨_, .conflict named conflict⟩

theorem Refuses.not_compatible {error : UsageError} (refuses : invocation.Refuses error)
    (named : ∀ line ∈ invocation.given, ¬ IsNameless line) :
    ¬ Compatible (invocation.settings.map Setting.flag) := by
  cases refuses with
  | conflict _ conflict => exact conflict.not_compatible
  | nameless given _ nameless =>
      refine absurd nameless (named _ ?_)
      rw [given]
      exact List.mem_append_right _ List.mem_cons_self

private theorem flag_ne_expression (leading : Leading) : leading.flag ≠ .expression := by
  cases leading with
  | verbose | grammar | listing => exact Flag.noConfusion
  | prompt given => cases given <;> exact Flag.noConfusion

private theorem lines?_setting (leading : Leading) : leading.setting.lines? = none := by
  cases leading with
  | verbose | grammar | listing => rfl
  | prompt given => cases given <;> rfl

private theorem map_flag_settings (invocation : Invocation) :
    invocation.settings.map Setting.flag =
      invocation.flags ++ (invocation.lines.map fun _ => Flag.expression).toList := by
  obtain ⟨leading, lines⟩ := invocation
  rw [settings, List.map_append, List.map_map]
  cases lines <;> rfl

private theorem mem_flags_iff {flag : Flag} (inFront : flag ≠ .expression)
    (invocation : Invocation) :
    flag ∈ invocation.settings.map Setting.flag ↔ flag ∈ invocation.flags := by
  rw [map_flag_settings, List.mem_append, or_iff_left]
  cases invocation.lines with
  | none => exact List.not_mem_nil
  | some lines => exact fun member => inFront (List.mem_singleton.mp member)

private theorem expression_mem_iff (invocation : Invocation) :
    .expression ∈ invocation.settings.map Setting.flag ↔ invocation.lines.isSome = true := by
  have notInFront : .expression ∉ invocation.flags := by
    intro member
    obtain ⟨item, _, named⟩ := List.mem_map.mp member
    exact flag_ne_expression item.2 named
  rw [map_flag_settings, List.mem_append, or_iff_right notInFront]
  cases invocation.lines <;> simp

def lastPrompt (invocation : Invocation) : Option String :=
  (invocation.leading.filterMap fun item => item.2.setting.prompt?).getLast?

/-- The options that are set if nothing is refused: only the flags in front are
flags, and everything behind them is lines. -/
def options (invocation : Invocation) : Options where
  verbose := decide (.verbose ∈ invocation.flags)
  task :=
    if .listing ∈ invocation.flags then .list
    else if .grammar ∈ invocation.flags then .showGrammar
    else .evaluate
  lines := invocation.lines.map Prod.snd
  prompt := invocation.lastPrompt

private theorem setBy_settings (invocation : Invocation) :
    Options.setBy invocation.settings = invocation.options := by
  have prompts : (invocation.settings.filterMap Setting.prompt?).getLast? =
      invocation.lastPrompt := by
    rw [settings, List.filterMap_append, List.filterMap_map]
    cases invocation.lines <;> exact congrArg _ (List.append_nil _)
  have lines : (invocation.settings.filterMap Setting.lines?).getLast? =
      invocation.lines.map Prod.snd := by
    have noLines : (invocation.leading.filterMap fun item => item.2.setting.lines?) = [] :=
      List.filterMap_eq_nil_iff.mpr fun item _ => lines?_setting item.2
    rw [settings, List.filterMap_append, List.filterMap_map]
    change ((invocation.leading.filterMap fun item => item.2.setting.lines?) ++ _).getLast? = _
    rw [noLines]
    cases invocation.lines <;> rfl
  have verbose : .verbose ∈ invocation.settings.map Setting.flag ↔ .verbose ∈ invocation.flags :=
    mem_flags_iff (by decide) invocation
  have listing : .listing ∈ invocation.settings.map Setting.flag ↔ .listing ∈ invocation.flags :=
    mem_flags_iff (by decide) invocation
  have grammar : .grammar ∈ invocation.settings.map Setting.flag ↔ .grammar ∈ invocation.flags :=
    mem_flags_iff (by decide) invocation
  simp only [Options.setBy, options, prompts, lines, verbose, listing, grammar]

/-! ### Reports -/

private theorem report_of_options {arguments : List String} {surroundings : Surroundings}
    {options : Options} (read : Options.ofArguments surroundings.edition arguments = .ok options) :
    (report arguments surroundings).status ≠ 2 ∧
      (report arguments surroundings).usageError = none := by
  have ended : surroundings.typingEnd.status ≠ 2 := by
    cases surroundings.typingEnd <;> decide
  have succeeded : 0 ≠ 2 := by decide
  cases task : options.task with
  | showGrammar =>
      rw [report_of_showGrammar read task]
      exact ⟨succeeded, rfl⟩
  | list =>
      rw [report_of_list read task, Options.reportListing]
      split
      · exact ⟨ended, rfl⟩
      · exact ⟨succeeded, rfl⟩
  | evaluate =>
      rw [report_of_evaluate read task]
      simp only [Options.reportEvaluation]
      split
      · exact ⟨ended, trivial⟩
      · exact ⟨succeeded, trivial⟩

private theorem report_of_lines {arguments lines : List String} {surroundings : Surroundings}
    {options : Options} (read : Options.ofArguments surroundings.edition arguments = .ok options)
    (given : options.lines = some lines) :
    (options.task = .list →
        (report arguments surroundings).stdout = unlines (Listing.ofLines lines)) ∧
      (options.task = .evaluate →
        let evaluation := State.initial.evaluateLines lines
        (report arguments surroundings).stdout = unlines evaluation.lines ∧
          (report arguments surroundings).stderr = unlines (evaluation.faults.map complaint)) := by
  have silent : options.prompting surroundings.atTerminal = none := by
    rw [Options.prompting, given]
  have input : options.input surroundings = lines := by
    rw [Options.input, given]
  constructor
  · intro lists
    rw [report_of_list read lists, Options.reportListing, silent, input]
  · intro evaluates
    rw [report_of_evaluate read evaluates]
    simp only [Options.reportEvaluation, input, and_self]

private theorem lastLine_of_not_mem {error : UsageError} (one : '\n' ∉ error.report.toList) :
    error.lastLine = error.report := by
  have whole : error.report.toList.reverse.takeWhile (· != '\n') = error.report.toList.reverse := by
    rw [List.takeWhile_eq_self_iff]
    intro c member
    rw [bne_iff_ne]
    rintro rfl
    exact one (List.mem_reverse.mp member)
  rw [UsageError.lastLine, whole, List.reverse_reverse, String.ofList_toList]

private theorem lastLine_conflict (later earlier : Flag) :
    (UsageError.conflict later earlier).lastLine =
      "irpn: error: argument " ++ later.title ++ ": not allowed with argument " ++
        earlier.title := by
  have titles (flag : Flag) : '\n' ∉ flag.title.toList := by
    cases flag <;> decide +kernel
  have front : programName ++ ": error: " ++ "argument " = "irpn: error: argument " := by
    decide +kernel
  have between : '\n' ∉ ": not allowed with argument ".toList := by decide +kernel
  have start : '\n' ∉ "irpn: error: argument ".toList := by decide +kernel
  have whole : (UsageError.conflict later earlier).report =
      "irpn: error: argument " ++ later.title ++ ": not allowed with argument " ++
        earlier.title := by
    have unfolded : (UsageError.conflict later earlier).report = programName ++ ": error: " ++
        ("argument " ++ later.title ++ ": not allowed with argument " ++ earlier.title) := rfl
    rw [unfolded, ← front]
    simp only [String.append_assoc]
  rw [lastLine_of_not_mem, whole]
  rw [whole, String.toList_append, String.toList_append, String.toList_append, List.mem_append,
    List.mem_append, List.mem_append]
  simp only [start, titles, between, or_self, not_false_eq_true]

structure Settles (invocation : Invocation) (surroundings : Surroundings) (shown : Report) :
    Prop where
  refused : shown.status = 2 ↔
    (∃ line ∈ invocation.given, IsNameless line) ∨
      .listing ∈ invocation.flags ∧ .grammar ∈ invocation.flags ∨
      .prompt ∈ invocation.flags ∧ invocation.lines.isSome = true
  silent : shown.status = 2 → shown.stdout = "" ∧ shown.usageError.isSome = true
  reported : ∀ error, shown.usageError = some error ↔ invocation.Refuses error
  /-- The later flag of a conflict is named first. -/
  named : ∀ later earlier, shown.usageError = some (.conflict later earlier) →
    shown.usageError.map UsageError.lastLine =
      some ("irpn: error: argument " ++ later.title ++ ": not allowed with argument " ++
        earlier.title)
  accepted : shown.usageError = none →
    Options.ofArguments surroundings.edition invocation.arguments = .ok invocation.options
  /-- Whatever stands behind the flag for lines is listed or evaluated. -/
  lines : shown.usageError = none → ∀ spelling lines, invocation.lines = some (spelling, lines) →
    (.listing ∈ invocation.flags → shown.stdout = unlines (Listing.ofLines lines)) ∧
      (.listing ∉ invocation.flags → .grammar ∉ invocation.flags →
        let evaluation := State.initial.evaluateLines lines
        shown.stdout = unlines evaluation.lines ∧
          shown.stderr = unlines (evaluation.faults.map complaint))
  /-- It only matters which flags there are in front, and what the last prompt is. -/
  rearranged : shown.usageError = none → ∀ others : List (Spelling × Leading),
    let other : Invocation := { invocation with leading := others }
    (∀ flag, flag ∈ other.flags ↔ flag ∈ invocation.flags) →
      other.lastPrompt = invocation.lastPrompt →
        report other.arguments surroundings = shown

private theorem refuses_iff (noSeparator : ∀ line ∈ invocation.given, line ≠ "--")
    (edition : Edition) (error : UsageError) :
    Options.ofArguments edition invocation.arguments = .error (.usage error) ↔
      invocation.Refuses error := by
  refine ⟨fun read => ?_, fun refuses => ofArguments_of_refuses noSeparator refuses edition⟩
  rcases invocation.exists_refuses_or_compatible with ⟨other, refuses⟩ | ⟨named, compatible⟩
  · rw [ofArguments_of_refuses noSeparator refuses] at read
    cases read
    exact refuses
  · rw [ofArguments_of_compatible noSeparator named compatible] at read
    cases read

private theorem exists_refuses_iff (invocation : Invocation) :
    (∃ error, invocation.Refuses error) ↔
      (∃ line ∈ invocation.given, IsNameless line) ∨
        .listing ∈ invocation.flags ∧ .grammar ∈ invocation.flags ∨
        .prompt ∈ invocation.flags ∧ invocation.lines.isSome = true := by
  have conflicting := not_compatible_iff (invocation.settings.map Setting.flag)
  rw [mem_flags_iff (by decide), mem_flags_iff (by decide), mem_flags_iff (by decide),
    expression_mem_iff] at conflicting
  rw [← conflicting]
  constructor
  · intro refused
    obtain ⟨error, refuses⟩ := refused
    by_cases named : ∀ line ∈ invocation.given, ¬ IsNameless line
    · exact .inr (refuses.not_compatible named)
    · refine .inl ?_
      simpa using named
  · intro reason
    rcases invocation.exists_refuses_or_compatible with refused | ⟨named, compatible⟩
    · exact refused
    · rcases reason with ⟨line, member, nameless⟩ | conflicts
      · exact absurd nameless (named line member)
      · exact absurd compatible conflicts

private theorem ofArguments_of_accepted (noSeparator : ∀ line ∈ invocation.given, line ≠ "--")
    (accepted : ¬ ∃ error, invocation.Refuses error) (edition : Edition) :
    Options.ofArguments edition invocation.arguments = .ok invocation.options := by
  rcases invocation.exists_refuses_or_compatible with refused | ⟨named, compatible⟩
  · exact absurd refused accepted
  · rw [ofArguments_of_compatible noSeparator named compatible, setBy_settings]

private theorem settles_of_refuses {error : UsageError}
    (noSeparator : ∀ line ∈ invocation.given, line ≠ "--") (refuses : invocation.Refuses error)
    (surroundings : Surroundings) :
    invocation.Settles surroundings { status := 2, usageError := some error } where
  refused := iff_of_true rfl ((exists_refuses_iff invocation).mp ⟨error, refuses⟩)
  silent _ := ⟨rfl, rfl⟩
  reported other := by
    rw [← refuses_iff noSeparator .early, ofArguments_of_refuses noSeparator refuses]
    simp
  named later earlier same := by
    rw [same, Option.map_some, lastLine_conflict]
  accepted := nofun
  lines := nofun
  rearranged := nofun

private theorem settles_of_accepted (noSeparator : ∀ line ∈ invocation.given, line ≠ "--")
    (accepted : ¬ ∃ error, invocation.Refuses error) (surroundings : Surroundings) :
    invocation.Settles surroundings (report invocation.arguments surroundings) := by
  have read := ofArguments_of_accepted noSeparator accepted surroundings.edition
  obtain ⟨status, noError⟩ := report_of_options read
  constructor
  · exact iff_of_false status ((exists_refuses_iff invocation).not.mp accepted)
  · intro refused
    exact absurd refused status
  · intro error
    rw [noError]
    exact iff_of_false nofun fun refuses => accepted ⟨error, refuses⟩
  · intro later earlier same
    rw [noError] at same
    cases same
  · intro _
    exact read
  · intro _ spelling lines given
    have handed : invocation.options.lines = some lines := by
      rw [options, given, Option.map_some]
    obtain ⟨listed, evaluated⟩ := report_of_lines read handed
    refine ⟨fun listing => listed (if_pos listing), fun noListing noGrammar => evaluated ?_⟩
    rw [options, if_neg noListing, if_neg noGrammar]
  · intro _ others other sameFlags samePrompt
    have sameOptions : other.options = invocation.options := by
      simp only [options, sameFlags, samePrompt]
      rfl
    have acceptedToo : ¬ ∃ error, other.Refuses error := by
      rw [exists_refuses_iff, sameFlags, sameFlags, sameFlags]
      exact (exists_refuses_iff invocation).not.mp accepted
    have noSeparatorToo : ∀ line ∈ other.given, line ≠ "--" := noSeparator
    have readToo := ofArguments_of_accepted noSeparatorToo acceptedToo surroundings.edition
    rw [report, report, readToo, sameOptions, read]

/-- Flags with lines behind them are refused if a nameless word stands among the
lines, if a listing and the grammar are asked for at once, or if lines follow a
prompt. The error names the first nameless word, or else the first flag that
excludes an earlier one together with that one. Otherwise nothing behind the flag
for lines is read as a flag, and the order and number of the flags in front of it
make no difference, as long as the last prompt is the same. -/
theorem flags_in_front_settle (invocation : Invocation)
    (noSeparator : ∀ line ∈ invocation.given, line ≠ "--") (surroundings : Surroundings) :
    invocation.Settles surroundings (report invocation.arguments surroundings) := by
  by_cases refused : ∃ error, invocation.Refuses error
  · obtain ⟨error, refuses⟩ := refused
    rw [report_of_usage (ofArguments_of_refuses noSeparator refuses _)]
    exact settles_of_refuses noSeparator refuses surroundings
  · exact settles_of_accepted noSeparator refused surroundings

/-- The grammar contradicts the listing before the lines contradict the prompt,
and the listing that is asked for in the lines is not looked at. -/
theorem flags_in_front_settle_leftmost :
    let invocation : Invocation :=
      { leading :=
          [(.letter, .prompt (some ⟨"in", by decide⟩)), (.word, .listing), (.letter, .verbose),
            (.letter, .grammar)]
        lines := some (.letter, ["-D", "-e"]) }
    let shown := report invocation.arguments {}
    invocation.arguments = ["-p", "in", "--dump", "-v", "-G", "-e", "-D", "-e"] ∧
      (∀ line ∈ invocation.given, line ≠ "--") ∧ shown.status = 2 ∧
      shown.usageError = some (.conflict .grammar .listing) := by
  intro invocation shown
  have noSeparator : ∀ line ∈ invocation.given, line ≠ "--" := by decide
  have settles := flags_in_front_settle invocation noSeparator {}
  have named : ∀ line ∈ invocation.given, ¬ IsNameless line := by decide
  have compatible : Compatible [.prompt, .listing, .verbose] := by
    by_contra conflicting
    rw [not_compatible_iff] at conflicting
    revert conflicting
    decide
  refine ⟨by decide, noSeparator, settles.refused.mpr (.inr (.inl (by decide))), ?_⟩
  exact (settles.reported _).mpr (.conflict named
    ⟨[.prompt, .listing, .verbose], [.expression], rfl, compatible, by decide, .grammar⟩)

/-- A nameless word among the lines is refused although there is no conflict. -/
theorem nameless_line_refused_without_conflict :
    let invocation : Invocation := { leading := [], lines := some (.letter, ["--=a"]) }
    let shown := report invocation.arguments {}
    invocation.arguments = ["-e", "--=a"] ∧ (∀ line ∈ invocation.given, line ≠ "--") ∧
      ¬ (shown.status = 2 ∧ shown.stdout = "" ↔
        .listing ∈ invocation.flags ∧ .grammar ∈ invocation.flags ∨
          .prompt ∈ invocation.flags ∧ invocation.lines.isSome = true) := by
  decide +kernel

end Invocation

end WordCalc.CommandLine
