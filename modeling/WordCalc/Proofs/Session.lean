import WordCalc.CommandLine.Report
import WordCalc.Proofs.Flags
import WordCalc.Proofs.ReadBack
import WordCalc.Proofs.Transcript

/-!
What a session at the prompt shows.

Before a line is asked for, the lines in front of it have been evaluated, and the
right end of the prompt shows the top of the stack that they leave. A session
ends with the line in which a quit stands, or when nothing more is typed. A
session that lists tokens reads every line and shows no state.
-/

namespace WordCalc

namespace State

/-- A line is asked for unless a quit stands in one of those in front of it, and
in the state that these leave. -/
theorem getElem?_asking (state : State) (lines : List String) (count : Nat) :
    (state.asking lines)[count]? =
      if count ≤ lines.length ∧ "q" ∉ (lines.take count).flatMap Text.tokens then
        some (state.after (((lines.take count).flatMap Text.tokens).map .token))
      else none := by
  induction lines generalizing state count with
  | nil =>
      cases count with
      | zero => rfl
      | succ count => rfl
  | cons line rest ih =>
      cases count with
      | zero => rfl
      | succ count =>
          rw [asking, List.getElem?_cons_succ, evaluate_eq]
          by_cases quits : "q" ∈ Text.tokens line
          · simp [quits]
          · simp [quits, upToQuit_of_not_mem quits, ih, after_append]

theorem length_asking_of_quit (state : State) {earlier : List String} {line : String}
    (goesOn : "q" ∉ earlier.flatMap Text.tokens) (quits : "q" ∈ Text.tokens line)
    (later : List String) :
    (state.asking (earlier ++ line :: later)).length = earlier.length + 1 := by
  have last := getElem?_asking state (earlier ++ line :: later) earlier.length
  have beyond := getElem?_asking state (earlier ++ line :: later) (earlier.length + 1)
  have front : (earlier ++ line :: later).take (earlier.length + 1) = earlier ++ [line] := by
    rw [List.append_cons, List.take_left' (by simp)]
  rw [List.take_left, if_pos ⟨by simp, goesOn⟩] at last
  rw [front, if_neg fun both => both.2 (by simp [quits])] at beyond
  have below := (List.getElem?_eq_some_iff.mp last).1
  have above := List.getElem?_eq_none_iff.mp beyond
  omega

theorem length_asking_of_no_quit (state : State) {lines : List String}
    (goesOn : "q" ∉ lines.flatMap Text.tokens) :
    (state.asking lines).length = lines.length + 1 := by
  have last := getElem?_asking state lines lines.length
  have beyond := getElem?_asking state lines (lines.length + 1)
  rw [List.take_length, if_pos ⟨Nat.le_refl _, goesOn⟩] at last
  rw [if_neg fun both => Nat.not_succ_le_self _ both.1] at beyond
  have below := (List.getElem?_eq_some_iff.mp last).1
  have above := List.getElem?_eq_none_iff.mp beyond
  omega

end State

private theorem strip_concat (front : List Char) {c : Char} (shown : Text.isBlank c = false) :
    Text.strip (front ++ [c]) = (front ++ [c]).dropWhile Text.isBlank ∧
      Text.strip (front ++ [c]) ≠ [] := by
  have kept : (front ++ [c]).dropWhile Text.isBlank = front.dropWhile Text.isBlank ++ [c] := by
    rw [List.dropWhile_append]
    cases front.dropWhile Text.isBlank with
    | nil => simp [shown]
    | cons first rest => simp
  have stripped : Text.strip (front ++ [c]) = front.dropWhile Text.isBlank ++ [c] := by
    rw [Text.strip, kept, List.rdropWhile_concat_neg]
    simp [shown]
  rw [stripped, kept]
  exact ⟨rfl, List.concat_ne_nil c _⟩

theorem Radix.strip_format (radix : Radix) (value : Value) :
    Text.strip (radix.format value).toList =
        (radix.format value).toList.dropWhile Text.isBlank ∧
      Text.strip (radix.format value).toList ≠ [] := by
  obtain ⟨front, shown⟩ : ∃ front, (radix.format value).toList = front ++ ['4'] := by
    rw [format, Value.text, String.toList_append, String.toList_ofList]
    cases value.signedness with
    | unsigned => exact ⟨value.digits radix.layout ++ ['u', '6'], by simp [Signedness.suffix]⟩
    | signed => exact ⟨value.digits radix.layout ++ ['i', '6'], by simp [Signedness.suffix]⟩
  rw [shown]
  exact strip_concat front rfl

namespace CommandLine

theorem rightPrompt_eq (state : State) :
    (rightPrompt state = "" ↔ state.stack = []) ∧
      ∀ top rest, state.stack = top :: rest →
        rightPrompt state = String.ofList (Text.strip (state.radix.format top).toList) := by
  obtain ⟨stack, registers, radix⟩ := state
  cases stack with
  | nil =>
      refine ⟨iff_of_true rfl rfl, ?_⟩
      intro top rest found
      cases found
  | cons value below =>
      obtain ⟨stripped, nonempty⟩ := radix.strip_format value
      have right : rightPrompt ⟨value :: below, registers, radix⟩ =
          String.ofList (Text.strip (radix.format value).toList) := by
        rw [stripped]
        rfl
      constructor
      · refine iff_of_false ?_ (List.cons_ne_nil value below)
        rw [right]
        intro empty
        exact nonempty (String.ofList_injective empty)
      · intro top rest found
        cases found
        exact right

/-! ### Sessions -/

structure ShowsStates (text : String) (surroundings : Surroundings) (shown : Report) : Prop where
  /-- A quit ends the session with the line that it stands in. -/
  quitting : ∀ earlier line later, surroundings.typed = earlier ++ line :: later →
    "q" ∉ earlier.flatMap Text.tokens → "q" ∈ Text.tokens line →
      shown.prompts.length = earlier.length + 1 ∧ shown.status = 0
  /-- Without one all lines are read, and one more is asked for. -/
  ending : "q" ∉ surroundings.typed.flatMap Text.tokens →
    shown.prompts.length = surroundings.typed.length + 1 ∧
      (surroundings.typingEnd = .endOfInput → shown.status = 0) ∧
      (surroundings.typingEnd = .interrupt → shown.status = 1)
  /-- The right end shows the top of the stack that the lines so far have left. -/
  prompt : ∀ count (isShown : count < shown.prompts.length),
    let state := State.initial.after
      (((surroundings.typed.take count).flatMap Text.tokens).map .token)
    ∃ right, shown.prompts[count] = .ofText text (some right) ∧
      (right = "" ↔ state.stack = []) ∧
      ∀ top rest, state.stack = top :: rest →
        right = String.ofList (Text.strip (state.radix.format top).toList)

private theorem status_reportEvaluation {options : Options} {surroundings : Surroundings}
    {text : String} (prompting : options.prompting surroundings.atTerminal = some text) :
    (options.reportEvaluation surroundings).status =
      if "q" ∈ (options.input surroundings).flatMap Text.tokens then 0
      else surroundings.typingEnd.status := by
  simp only [Options.reportEvaluation, prompting, State.evaluateLines_eq_evaluate,
    State.evaluate_eq]
  by_cases quits : "q" ∈ (options.input surroundings).flatMap Text.tokens
  · simp [quits]
  · simp [quits]

private theorem prompts_reportEvaluation {options : Options} {surroundings : Surroundings}
    {text : String} (prompting : options.prompting surroundings.atTerminal = some text) :
    (options.reportEvaluation surroundings).prompts =
      (State.initial.asking (options.input surroundings)).map fun state =>
        .ofText text (some (rightPrompt state)) := by
  rw [Options.reportEvaluation, prompting]

private theorem showsStates_reportEvaluation {options : Options} {surroundings : Surroundings}
    {text : String} (prompting : options.prompting surroundings.atTerminal = some text)
    (input : options.input surroundings = surroundings.typed) :
    ShowsStates text surroundings (options.reportEvaluation surroundings) := by
  have status := status_reportEvaluation prompting
  have prompts := prompts_reportEvaluation prompting
  rw [input] at status prompts
  constructor
  · intro earlier line later typed goesOn quits
    have finishes : "q" ∈ surroundings.typed.flatMap Text.tokens := by
      rw [typed, List.flatMap_append, List.flatMap_cons]
      exact List.mem_append_right _ (List.mem_append_left _ quits)
    rw [status, if_pos finishes, prompts, List.length_map, typed,
      State.length_asking_of_quit .initial goesOn quits later]
    exact ⟨rfl, rfl⟩
  · intro goesOn
    rw [status, if_neg goesOn, prompts, List.length_map,
      State.length_asking_of_no_quit .initial goesOn]
    refine ⟨rfl, ?_, ?_⟩
    · intro ended
      rw [ended]
      rfl
    · intro ended
      rw [ended]
      rfl
  · intro count isShown state
    have within : count < (State.initial.asking surroundings.typed).length := by
      rwa [prompts, List.length_map] at isShown
    have asked : (State.initial.asking surroundings.typed)[count] = state := by
      have found := State.getElem?_asking .initial surroundings.typed count
      rw [List.getElem?_eq_getElem within] at found
      split at found
      · exact Option.some.inj found
      · cases found
    refine ⟨rightPrompt state, ?_, rightPrompt_eq state⟩
    simp only [prompts, List.getElem_map, asked]

theorem session_follows_state {text : String} (nonempty : text ≠ "")
    (noHyphen : text.toList.head? ≠ some '-') {before behind : List String}
    (areFlags : ∀ flag ∈ before ++ behind, IsFlag flag) (surroundings : Surroundings) :
    let arguments := before ++ "-p" :: text :: behind
    let shown := report arguments surroundings
    ((∀ flag ∈ before ++ behind, flag ∉ listingArguments) →
      ShowsStates text surroundings shown ∧
        ∀ typingEnd,
          let other := report arguments { surroundings with typingEnd }
          other.stdout = shown.stdout ∧ other.stderr = shown.stderr ∧
            other.prompts = shown.prompts) ∧
      ((∃ flag ∈ before ++ behind, flag ∈ listingArguments) →
        shown.prompts = List.replicate (surroundings.typed.length + 1) (.ofText text none) ∧
          shown.stdout = unlines (Listing.ofLines surroundings.typed)) := by
  intro arguments shown
  obtain ⟨options, set⟩ : ∃ options : Options,
      options = { ({} : Options).withFlags (before ++ behind) with prompt := some text } := ⟨_, rfl⟩
  have read (edition : Edition) : Options.ofArguments edition arguments = .ok options := by
    rw [set]
    exact options_of_prompt areFlags noHyphen edition
  have noLines : options.lines = none := by
    rw [set]
    rfl
  have prompting (atTerminal : Bool) : options.prompting atTerminal = some text := by
    rw [Options.prompting, noLines, set]
    exact if_pos nonempty
  have input (surroundings : Surroundings) : options.input surroundings = surroundings.typed := by
    rw [Options.input, noLines, prompting]
  constructor
  · intro noListing
    have evaluates : options.task = .evaluate := by
      rw [set]
      exact Options.withFlags_lists_not {} noListing
    have evaluated (surroundings : Surroundings) :
        report arguments surroundings = options.reportEvaluation surroundings :=
      report_of_evaluate (read surroundings.edition) evaluates
    have shows := showsStates_reportEvaluation (prompting surroundings.atTerminal)
      (input surroundings)
    rw [← evaluated surroundings] at shows
    refine ⟨shows, ?_⟩
    intro typingEnd
    simp only [shown, evaluated, Options.reportEvaluation, input, prompting, and_self]
  · intro listing
    have lists : options.task = .list := by
      rw [set]
      exact Options.withFlags_lists {} listing
    have listed : shown = options.reportListing surroundings := report_of_list (read _) lists
    rw [listed, Options.reportListing, prompting, input]
    exact ⟨rfl, rfl⟩

/-- A division by zero changes nothing, a new radix is in force from the next
prompt on, and the line behind the quit is not asked for. -/
theorem session_follows_state_to_quit :
    let surroundings : Surroundings :=
      { typed := ["7 0 /", "16 o 255", "1 q 9", "p"], typingEnd := .interrupt }
    let shown := report ["-v", "-p", "? "] surroundings
    "? " ≠ "" ∧ "? ".toList.head? ≠ some '-' ∧ IsFlag "-v" ∧
      ShowsStates "? " surroundings shown ∧ shown.status = 0 ∧
      shown.prompts.map Prompt.right =
        [some "", some "0u64", some "0x00000000000000ffu64"] := by
  intro surroundings shown
  have nonempty : "? " ≠ "" := by decide
  have noHyphen : "? ".toList.head? ≠ some '-' := by decide
  have isFlag : IsFlag "-v" := .inl (by decide)
  have areFlags : ∀ flag ∈ ["-v"] ++ [], IsFlag flag := List.forall_mem_singleton.mpr isFlag
  have noListing : ∀ flag ∈ ["-v"] ++ [], flag ∉ listingArguments := by decide
  obtain ⟨evaluating, _⟩ := session_follows_state nonempty noHyphen areFlags surroundings
  exact ⟨nonempty, noHyphen, isFlag, (evaluating noListing).1, by decide +kernel,
    by decide +kernel⟩

end CommandLine

end WordCalc
