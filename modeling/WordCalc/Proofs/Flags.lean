import WordCalc.Proofs.Arguments

/-!
Flags in front of lines and around a prompt.

Flags that take no text can stand in any number in front of the flag for lines,
and in front of a prompt and behind it. Which options such a command line sets
is said here once, for all numbers of flags.
-/

namespace WordCalc.CommandLine

def verboseArguments : List String := ["-v", "--verbose"]

def listingArguments : List String := ["-D", "--dump"]

def IsFlag (argument : String) : Prop :=
  argument ∈ verboseArguments ∨ argument ∈ listingArguments

def flagRequest (flag : String) : Request :=
  if flag ∈ listingArguments then .listing else .verbose

def Options.withFlags (options : Options) (flags : List String) : Options :=
  { options with
    verbose := options.verbose || flags.any fun flag => flag ∈ verboseArguments
    task := if flags.any fun flag => flag ∈ listingArguments then .list else options.task }

private theorem IsFlag.cases {flag : String} (isFlag : IsFlag flag) :
    (∀ edition rest,
        requests edition (flag :: rest) = flagRequest flag :: requests edition rest) ∧
      (flagRequest flag = .verbose ∧ flag ∈ verboseArguments ∧ flag ∉ listingArguments ∨
        flagRequest flag = .listing ∧ flag ∉ verboseArguments ∧ flag ∈ listingArguments) := by
  simp only [IsFlag, verboseArguments, listingArguments, List.mem_cons, List.not_mem_nil,
    or_false] at isFlag
  rcases isFlag with (rfl | rfl) | rfl | rfl
  · exact ⟨fun _ _ => rfl, .inl (by decide)⟩
  · exact ⟨fun _ _ => rfl, .inl (by decide)⟩
  · exact ⟨fun _ _ => rfl, .inr (by decide)⟩
  · exact ⟨fun _ _ => rfl, .inr (by decide)⟩

theorem requests_flags_append {flags : List String} (areFlags : ∀ flag ∈ flags, IsFlag flag)
    (edition : Edition) (rest : List String) :
    requests edition (flags ++ rest) = flags.map flagRequest ++ requests edition rest := by
  induction flags with
  | nil => rfl
  | cons flag others ih =>
      obtain ⟨here, _⟩ := (areFlags flag List.mem_cons_self).cases
      have further := ih fun other member => areFlags other (List.mem_cons_of_mem _ member)
      rw [List.cons_append, here, further, List.map_cons, List.cons_append]

theorem requests_flags {flags : List String} (areFlags : ∀ flag ∈ flags, IsFlag flag)
    (edition : Edition) : requests edition flags = flags.map flagRequest := by
  have alone := requests_flags_append areFlags edition []
  rwa [List.append_nil, requests, List.append_nil] at alone

theorem Options.withFlags_append (options : Options) (before behind : List String) :
    options.withFlags (before ++ behind) = (options.withFlags before).withFlags behind := by
  simp only [withFlags, List.any_append, Bool.or_assoc]
  cases before.any fun flag => flag ∈ listingArguments with
  | true => simp
  | false => simp

theorem Options.withFlags_lists {flags : List String} (options : Options)
    (lists : ∃ flag ∈ flags, flag ∈ listingArguments) : (options.withFlags flags).task = .list := by
  rw [withFlags, if_pos]
  simpa using lists

theorem Options.withFlags_lists_not {flags : List String} (options : Options)
    (lists : ∀ flag ∈ flags, flag ∉ listingArguments) :
    (options.withFlags flags).task = options.task := by
  rw [withFlags, if_neg]
  simpa using lists

theorem foldlM_take_flags {flags : List String} (areFlags : ∀ flag ∈ flags, IsFlag flag)
    {options : Options} (noGrammar : options.task ≠ .showGrammar) :
    (flags.map flagRequest).foldlM Options.take options = .ok (options.withFlags flags) := by
  induction flags generalizing options with
  | nil => simp [Options.withFlags, pure, Except.pure]
  | cons flag others ih =>
      have further := fun other member => areFlags other (List.mem_cons_of_mem flag member)
      obtain ⟨_, verbose | listing⟩ := (areFlags flag List.mem_cons_self).cases
      · obtain ⟨asks, isVerbose, notListing⟩ := verbose
        have rest := @ih further { options with verbose := true } noGrammar
        rw [List.map_cons, List.foldlM_cons, asks]
        refine rest.trans ?_
        simp [Options.withFlags, isVerbose, notListing]
      · obtain ⟨asks, notVerbose, isListing⟩ := listing
        have taken : options.take .listing = .ok { options with task := .list } := by
          rw [Options.take, if_neg noGrammar]
        have stillNone : Task.list ≠ .showGrammar := by decide
        have rest := @ih further { options with task := .list } stillNone
        rw [List.map_cons, List.foldlM_cons, asks, taken]
        refine rest.trans ?_
        simp [Options.withFlags, notVerbose, isListing]

/-- Without a separator and without an ambiguous word, arguments are requests
one after the other. -/
theorem ofArguments_eq_requests {arguments : List String}
    (plain : ∀ argument ∈ arguments, argument ≠ "--" ∧ ¬ ['-', '-', '='] <+: argument.toList)
    (edition : Edition) :
    Request.ofArguments edition arguments = requests edition arguments := by
  have other : ∀ argument ∈ arguments, (argument != separator) = true :=
    fun argument member => bne_iff_ne.mpr (plain argument member).1
  have unambiguous : (arguments.find? fun argument =>
      Argument.read edition argument.toList == .ambiguous) = none := by
    rw [List.find?_eq_none]
    intro argument member
    rw [beq_iff_eq, Argument.read_eq_ambiguous_iff, not_or]
    exact ⟨fun separates => (plain argument member).1 (String.toList_inj.mp separates),
      (plain argument member).2⟩
  simp only [Request.ofArguments, List.takeWhile_eq_self_iff.mpr other,
    List.dropWhile_eq_nil_iff.mpr other, unambiguous, List.map_nil, List.append_nil]

theorem ofArguments_eq_refused {before behind : List String} {argument : String}
    (noSeparator : ∀ other ∈ before ++ argument :: behind, other ≠ "--")
    (plain : ∀ other ∈ before, ¬ ['-', '-', '='] <+: other.toList)
    (ambiguous : ['-', '-', '='] <+: argument.toList) (edition : Edition) :
    Request.ofArguments edition (before ++ argument :: behind) =
      [.refused (.ambiguous argument)] := by
  have other : ∀ one ∈ before ++ argument :: behind, (one != separator) = true :=
    fun one member => bne_iff_ne.mpr (noSeparator one member)
  have found : ((before ++ argument :: behind).find? fun argument =>
      Argument.read edition argument.toList == .ambiguous) = some argument := by
    rw [List.find?_eq_some_iff_append, beq_iff_eq, Argument.read_eq_ambiguous_iff]
    refine ⟨.inr ambiguous, before, behind, rfl, fun one member => ?_⟩
    rw [Bool.not_eq_true', beq_eq_false_iff_ne, ne_eq, Argument.read_eq_ambiguous_iff, not_or]
    exact ⟨fun separates => noSeparator one (List.mem_append_left _ member)
      (String.toList_inj.mp separates), plain one member⟩
  simp only [Request.ofArguments, List.takeWhile_eq_self_iff.mpr other, found]

theorem IsFlag.plain {flag : String} (isFlag : IsFlag flag) :
    flag ≠ "--" ∧ ¬ ['-', '-', '='] <+: flag.toList := by
  have every : ∀ flag ∈ verboseArguments ++ listingArguments,
      flag ≠ "--" ∧ ¬ ['-', '-', '='] <+: flag.toList := by
    decide
  exact every flag (List.mem_append.mpr isFlag)

theorem options_of_flags {flags : List String} (areFlags : ∀ flag ∈ flags, IsFlag flag)
    (edition : Edition) :
    Options.ofArguments edition flags = .ok (({} : Options).withFlags flags) := by
  rw [Options.ofArguments, ofArguments_eq_requests fun flag member => (areFlags flag member).plain,
    requests_flags areFlags, foldlM_take_flags areFlags (by decide)]
  rfl

theorem options_of_lines {flags lines : List String} (areFlags : ∀ flag ∈ flags, IsFlag flag)
    (plain : ∀ line ∈ lines, line ≠ "--" ∧ ¬ ['-', '-', '='] <+: line.toList)
    (edition : Edition) :
    Options.ofArguments edition (flags ++ "-e" :: lines) =
      .ok { ({} : Options).withFlags flags with lines := some lines } := by
  have allPlain : ∀ argument ∈ flags ++ "-e" :: lines,
      argument ≠ "--" ∧ ¬ ['-', '-', '='] <+: argument.toList := by
    rw [List.forall_mem_append, List.forall_mem_cons]
    exact ⟨fun flag member => (areFlags flag member).plain, by decide, plain⟩
  have asked : requests edition (flags ++ "-e" :: lines) =
      flags.map flagRequest ++ [.lines lines] :=
    requests_flags_append areFlags edition ("-e" :: lines)
  rw [Options.ofArguments, ofArguments_eq_requests allPlain, asked, List.foldlM_append,
    foldlM_take_flags areFlags (by decide)]
  rfl

theorem plain_of_no_hyphen {text : String} (noHyphen : text.toList.head? ≠ some '-') :
    text ≠ "--" ∧ ¬ ['-', '-', '='] <+: text.toList := by
  constructor
  · rintro rfl
    exact noHyphen rfl
  · rintro ⟨rest, whole⟩
    rw [← whole] at noHyphen
    exact noHyphen rfl

theorem isOperand_of_no_hyphen {text : String} (noHyphen : text.toList.head? ≠ some '-')
    (edition : Edition) : isOperand edition text = true := by
  rw [isOperand, beq_iff_eq]
  cases chars : text.toList with
  | nil => rfl
  | cons c rest =>
      rw [chars] at noHyphen
      have other : c ≠ '-' := fun same => noHyphen (congrArg some same)
      unfold Argument.read
      split
      · rename_i same
        exact absurd (List.cons.inj same).1 other
      · rename_i same
        exact absurd (List.cons.inj same).1 other
      · rfl

theorem options_of_prompt {before behind : List String} {text : String}
    (areFlags : ∀ flag ∈ before ++ behind, IsFlag flag)
    (noHyphen : text.toList.head? ≠ some '-') (edition : Edition) :
    Options.ofArguments edition (before ++ "-p" :: text :: behind) =
      .ok { ({} : Options).withFlags (before ++ behind) with prompt := some text } := by
  obtain ⟨flagsBefore, flagsBehind⟩ := List.forall_mem_append.mp areFlags
  have textPlain := plain_of_no_hyphen noHyphen
  have allPlain : ∀ argument ∈ before ++ "-p" :: text :: behind,
      argument ≠ "--" ∧ ¬ ['-', '-', '='] <+: argument.toList := by
    rw [List.forall_mem_append, List.forall_mem_cons, List.forall_mem_cons]
    exact ⟨fun flag member => (flagsBefore flag member).plain, by decide, textPlain,
      fun flag member => (flagsBehind flag member).plain⟩
  have prompted : requests edition ("-p" :: text :: behind) =
      .prompt text :: requests edition behind := by
    change (if isOperand edition text then
      [] ++ .prompt text :: requests edition behind else _) = _
    rw [if_pos (isOperand_of_no_hyphen noHyphen edition)]
    rfl
  have noGrammar : (({} : Options).withFlags before).task ≠ .showGrammar := by
    simp only [Options.withFlags]
    split
    · decide
    · decide
  have further := @foldlM_take_flags behind flagsBehind
    { ({} : Options).withFlags before with prompt := some text } noGrammar
  rw [Options.ofArguments, ofArguments_eq_requests allPlain, requests_flags_append flagsBefore,
    prompted, requests_flags flagsBehind, List.foldlM_append,
    foldlM_take_flags flagsBefore (by decide), Options.withFlags_append]
  change (do
    let options ← List.foldlM Options.take
      { ({} : Options).withFlags before with prompt := some text } (behind.map flagRequest)
    if options.stray.isEmpty then .ok options
    else .error (.usage (.unrecognized options.stray))) = _
  rw [further]
  rfl

end WordCalc.CommandLine
