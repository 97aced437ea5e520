import Mathlib.Data.List.TakeWhile
import WordCalc.CommandLine.Arguments

/-!
What arguments are taken for.

An argument is ambiguous only if it is a word of which nothing stands in front
of its equals sign. This, and the separator, is all that keeps arguments from
being handed over as lines.
-/

namespace WordCalc.CommandLine

/-- The words of two flags do not begin alike. -/
private theorem beginningWith_of_ne_nil {beginning : List Char} (nonempty : beginning ≠ []) :
    Flag.beginningWith beginning = [] ∨ ∃ flag, Flag.beginningWith beginning = [flag] := by
  obtain ⟨c, rest, rfl⟩ := List.exists_cons_of_ne_nil nonempty
  have differ : Flag.all.Pairwise fun one other =>
      one.word.toList.head? ≠ other.word.toList.head? := by decide
  have among : (Flag.beginningWith (c :: rest)).Sublist Flag.all := List.filter_sublist
  have head : ∀ flag ∈ Flag.beginningWith (c :: rest), flag.word.toList.head? = some c := by
    intro flag member
    obtain ⟨_, begins⟩ := List.mem_filter.mp member
    obtain ⟨others, word⟩ := List.isPrefixOf_iff_prefix.mp begins
    rw [← word]
    rfl
  cases found : Flag.beginningWith (c :: rest) with
  | nil => exact .inl rfl
  | cons flag others =>
      cases others with
      | nil => exact .inr ⟨flag, rfl⟩
      | cons other more =>
          rw [found] at among head
          have distinct := (List.pairwise_cons.mp (differ.sublist among)).1 other
            List.mem_cons_self
          rw [head flag List.mem_cons_self,
            head other (List.mem_cons_of_mem flag List.mem_cons_self)] at distinct
          exact absurd rfl distinct

private theorem withoutFlag_ne_ambiguous (tail : List Char) :
    Argument.withoutFlag tail ≠ .ambiguous := by
  rw [Argument.withoutFlag]
  split <;> exact Argument.noConfusion

private theorem withLetter_ne_ambiguous (edition : Edition) (flag : Flag) (tail : List Char) :
    Argument.withLetter edition flag tail ≠ .ambiguous := by
  unfold Argument.withLetter
  split
  · split <;> exact Argument.noConfusion
  · exact Argument.noConfusion

private theorem beforeEquals_eq_nil_iff (rest : List Char) :
    rest.takeWhile (· != '=') = [] ↔ rest = [] ∨ ['='] <+: rest := by
  cases rest with
  | nil => simp
  | cons c more =>
      by_cases assigns : c = '='
      · subst assigns
        simp [List.cons_prefix_cons]
      · have other : ¬ '=' = c := fun same => assigns same.symm
        simp [assigns, other, List.cons_prefix_cons]

/-- A word is ambiguous only if nothing of it is there. -/
theorem Argument.read_eq_ambiguous_iff (edition : Edition) (chars : List Char) :
    read edition chars = .ambiguous ↔ chars = ['-', '-'] ∨ ['-', '-', '='] <+: chars := by
  have ofWord (rest : List Char) :
      ('-' :: '-' :: rest = ['-', '-'] ∨ ['-', '-', '='] <+: '-' :: '-' :: rest) ↔
        rest.takeWhile (· != '=') = [] := by
    rw [beforeEquals_eq_nil_iff, List.cons_prefix_cons, List.cons_prefix_cons]
    simp
  have ofLetter {letter : Char} (noWord : letter ≠ '-') (tail : List Char) :
      ¬ ('-' :: letter :: tail = ['-', '-'] ∨ ['-', '-', '='] <+: '-' :: letter :: tail) := by
    have other : ¬ '-' = letter := fun same => noWord same.symm
    simp [List.cons_prefix_cons, noWord, other]
  have empty : Flag.beginningWith [] = Flag.all := rfl
  fun_cases read edition chars with
  | case1 rest found =>
      rw [ofWord]
      refine iff_of_false (withoutFlag_ne_ambiguous _) fun none => ?_
      rw [none, empty] at found
      cases found
  | case2 rest flag found _ | case3 rest flag found =>
      rw [ofWord]
      refine iff_of_false Argument.noConfusion fun none => ?_
      rw [none, empty] at found
      cases found
  | case4 rest several single =>
      rw [ofWord]
      refine iff_of_true rfl ?_
      by_contra nonempty
      rcases beginningWith_of_ne_nil nonempty with none | ⟨flag, one⟩
      · exact several none
      · exact single flag one
  | case5 letter rest noWord flag =>
      exact iff_of_false (withLetter_ne_ambiguous edition flag rest) (ofLetter noWord rest)
  | case6 letter rest noWord =>
      exact iff_of_false (withoutFlag_ne_ambiguous _) (ofLetter noWord rest)
  | case7 _ noWord =>
      refine iff_of_false Argument.noConfusion ?_
      rintro (rfl | ⟨rest, rfl⟩)
      · exact noWord [] rfl
      · exact noWord ('=' :: rest) rfl

def HandedOver (edition : Edition) (lines : List String) : Prop :=
  Request.ofArguments edition ("-e" :: lines) = [.lines lines]

private theorem ofArguments_expression (edition : Edition) (lines : List String) :
    Request.ofArguments edition ("-e" :: lines) =
      match (lines.takeWhile (· != separator)).find? fun argument =>
          Argument.read edition argument.toList == .ambiguous with
      | some argument => [.refused (.ambiguous argument)]
      | none =>
          .lines (lines.takeWhile (· != separator)) ::
            (lines.dropWhile (· != separator)).map .stray := by
  rfl

theorem handedOver_iff (edition : Edition) (lines : List String) :
    HandedOver edition lines ↔
      ∀ line ∈ lines, line ≠ "--" ∧ ¬ ['-', '-', '='] <+: line.toList := by
  rw [HandedOver, ofArguments_expression]
  cases found : (lines.takeWhile (· != separator)).find? fun argument =>
      Argument.read edition argument.toList == .ambiguous with
  | some argument =>
      have member : argument ∈ lines :=
        (List.takeWhile_prefix _).subset (List.mem_of_find?_eq_some found)
      have read : (Argument.read edition argument.toList == .ambiguous) = true :=
        (List.find?_eq_some_iff_append.mp found).1
      have ambiguous := (Argument.read_eq_ambiguous_iff edition argument.toList).mp (eq_of_beq read)
      refine iff_of_false (by rintro ⟨⟩) fun plain => ?_
      obtain ⟨notSeparator, notAssigned⟩ := plain argument member
      rcases ambiguous with separates | assigned
      · exact notSeparator (String.toList_inj.mp separates)
      · exact notAssigned assigned
  | none =>
      constructor
      · intro handed
        have whole : lines.takeWhile (· != separator) = lines :=
          Request.lines.inj (List.cons.inj handed).1
        rw [whole, List.find?_eq_none] at found
        intro line member
        constructor
        · exact bne_iff_ne.mp (List.takeWhile_eq_self_iff.mp whole line member)
        · intro assigned
          exact found line member (beq_iff_eq.mpr
            ((Argument.read_eq_ambiguous_iff edition line.toList).mpr (.inr assigned)))
      · intro plain
        have other : ∀ line ∈ lines, (line != separator) = true :=
          fun line member => bne_iff_ne.mpr (plain line member).1
        rw [List.takeWhile_eq_self_iff.mpr other, List.dropWhile_eq_nil_iff.mpr other]
        rfl

theorem HandedOver.options {edition : Edition} {lines : List String}
    (handedOver : HandedOver edition lines) :
    Options.ofArguments edition ("-e" :: lines) = .ok { lines := some lines } := by
  rw [Options.ofArguments, handedOver]
  rfl

/-- The command lines that ask for lines to be typed: no arguments at a
terminal, or a prompt that is not empty. -/
inductive AsksForLines (edition : Edition) (atTerminal : Bool) : List String → Prop
  | bare : atTerminal = true → AsksForLines edition atTerminal []
  | prompt : AsksForLines edition atTerminal ["-p"]
  | promptText {text : String} :
      isOperand edition text = true → text ≠ "" → AsksForLines edition atTerminal ["-p", text]

private theorem requests_promptText {edition : Edition} {text : String}
    (operand : isOperand edition text = true) :
    Request.ofArguments edition ["-p", text] = [.prompt text] := by
  have read : Argument.read edition text.toList = .operand := eq_of_beq operand
  have other : (text != separator) = true := by
    rw [bne_iff_ne]
    rintro rfl
    cases operand
  have whole : ["-p", text].takeWhile (· != separator) = ["-p", text] := by
    rw [List.takeWhile_eq_self_iff, List.forall_mem_cons, List.forall_mem_singleton]
    exact ⟨rfl, other⟩
  have nothing : ["-p", text].dropWhile (· != separator) = [] := by
    rw [List.dropWhile_eq_nil_iff, List.forall_mem_cons, List.forall_mem_singleton]
    exact ⟨rfl, other⟩
  have unambiguous : (["-p", text].find? fun argument =>
      Argument.read edition argument.toList == .ambiguous) = none := by
    rw [List.find?_eq_none, List.forall_mem_cons, List.forall_mem_singleton, read]
    exact ⟨Bool.false_ne_true, Bool.false_ne_true⟩
  have taken : requests edition ["-p", text] = [.prompt text] := by
    change (if isOperand edition text then [Request.prompt text] else _) = _
    rw [if_pos operand]
  simp only [Request.ofArguments, whole, nothing, unambiguous, taken, List.map_nil,
    List.append_nil]

theorem AsksForLines.options {edition : Edition} {atTerminal : Bool} {arguments : List String}
    (asks : AsksForLines edition atTerminal arguments) :
    ∃ prompt, Options.ofArguments edition arguments = .ok { prompt } ∧
      (({ prompt } : Options).prompting atTerminal).isSome = true := by
  cases asks with
  | bare terminal =>
      refine ⟨none, rfl, ?_⟩
      rw [terminal]
      rfl
  | prompt => exact ⟨some defaultPrompt, rfl, rfl⟩
  | @promptText text operand nonempty =>
      have prompting : ({ prompt := some text } : Options).prompting atTerminal = some text :=
        if_pos nonempty
      refine ⟨some text, ?_, ?_⟩
      · rw [Options.ofArguments, requests_promptText operand]
        rfl
      · rw [prompting]
        rfl

/-! ### Editions -/

/-- Nothing is joined to the letter of a flag, and `--` to no word. -/
structure IsSeparate (argument : String) : Prop where
  letter : ∀ c tail, argument.toList = '-' :: c :: tail → (Flag.ofLetter? c).isSome = true →
    tail = []
  word : ¬ ['=', '-', '-'] <:+ argument.toList

/-- What is read in a separate argument: no flag at all, a flag alone, or a flag
with a text that is not the separator. -/
private inductive ReadsSeparately : Argument → Prop
  | operand : ReadsSeparately .operand
  | unknown : ReadsSeparately .unknown
  | ambiguous : ReadsSeparately .ambiguous
  | named (flag : Flag) : ReadsSeparately (.named flag [])
  | assigned (flag : Flag) {text : List Char} :
      text ≠ ['-', '-'] → ReadsSeparately (.assigned flag text)

private theorem readsSeparately_withoutFlag (tail : List Char) :
    ReadsSeparately (Argument.withoutFlag tail) := by
  rw [Argument.withoutFlag]
  split
  · exact .operand
  · exact .unknown

private theorem IsSeparate.read {argument : String} (separate : IsSeparate argument)
    (edition : Edition) :
    ReadsSeparately (Argument.read edition argument.toList) ∧
      ∀ other, Argument.read other argument.toList = Argument.read edition argument.toList := by
  obtain ⟨letter, word⟩ := separate
  generalize argument.toList = chars at letter word
  fun_cases Argument.read edition chars with
  | case1 rest none => exact ⟨readsSeparately_withoutFlag _, fun _ => by simp [Argument.read, none]⟩
  | case2 rest flag one alone =>
      exact ⟨.named flag, fun _ => by simp [Argument.read, one, alone]⟩
  | case3 rest flag one c text assigned =>
      refine ⟨.assigned flag ?_, fun _ => by simp [Argument.read, one, assigned]⟩
      rintro rfl
      obtain rfl : c = '=' := by
        have stopped := List.head?_dropWhile_not (· != '=') rest
        rw [assigned] at stopped
        simpa using stopped
      have suffix := List.dropWhile_suffix (l := rest) (· != '=')
      rw [assigned] at suffix
      exact word (suffix.trans ((List.suffix_cons '-' rest).trans (List.suffix_cons '-' _)))
  | case4 rest several single =>
      exact ⟨.ambiguous, fun _ => by simp only [Argument.read]⟩
  | case5 c rest noWord flag isFlag =>
      obtain rfl : rest = [] := letter c rest rfl (by simp [isFlag])
      refine ⟨.named flag, fun _ => ?_⟩
      rw [Argument.read, isFlag]
      · rfl
      · exact noWord
  | case6 c rest noWord noFlag =>
      refine ⟨readsSeparately_withoutFlag _, fun _ => ?_⟩
      rw [Argument.read, noFlag]
      exact noWord
  | case7 _ noWord noLetter =>
      exact ⟨.operand, fun _ => Argument.read.eq_3 _ _ noWord noLetter⟩

private theorem ReadsSeparately.reading? {argument : Argument} (reads : ReadsSeparately argument)
    (one other : Edition) : argument.reading? one = argument.reading? other := by
  cases reads with
  | operand | unknown | ambiguous | named | assigned => rfl

private theorem ReadsSeparately.joinedPrompt {argument : Argument}
    (reads : ReadsSeparately argument) {edition : Edition} {leading : List Request}
    {text : String}
    (joined : argument.reading? edition = some (.ok (leading, some (.prompt (some text)))))
    (other : Edition) : joinedPrompt other text = text := by
  refine if_neg fun both => ?_
  cases reads with
  | operand | unknown | ambiguous => cases joined
  | named flag => cases flag <;> cases joined
  | assigned flag notSeparator =>
      cases flag <;> cases joined
      rw [separator, ← String.toList_inj] at both
      exact notSeparator (by simpa using both.2)

private theorem IsSeparate.reading? {argument : String} (separate : IsSeparate argument)
    (one other : Edition) :
    (Argument.read one argument.toList).reading? one =
      (Argument.read other argument.toList).reading? other := by
  obtain ⟨reads, same⟩ := separate.read one
  rw [same other, reads.reading? one other]

private theorem IsSeparate.isOperand_eq {argument : String} (separate : IsSeparate argument)
    (one other : Edition) : isOperand one argument = isOperand other argument := by
  obtain ⟨_, same⟩ := separate.read one
  rw [isOperand, isOperand, same other]

theorem requests_of_separate {arguments : List String}
    (separate : ∀ argument ∈ arguments, IsSeparate argument) (one other : Edition) :
    requests one arguments = requests other arguments := by
  induction arguments using requests.induct one with
  | case1 => rfl
  | case2 argument rest read ih =>
      obtain ⟨first, further⟩ := List.forall_mem_cons.mp separate
      rw [requests, requests, ← first.reading? one other, read, ih further]
  | case3 argument rest error read =>
      obtain ⟨first, _⟩ := List.forall_mem_cons.mp separate
      rw [requests, requests, ← first.reading? one other, read]
  | case4 argument rest leading read ih =>
      obtain ⟨first, further⟩ := List.forall_mem_cons.mp separate
      rw [requests, requests, ← first.reading? one other, read, ih further]
  | case5 argument rest leading read =>
      obtain ⟨first, _⟩ := List.forall_mem_cons.mp separate
      rw [requests, requests, ← first.reading? one other, read]
  | case6 argument rest leading text read ih =>
      obtain ⟨first, further⟩ := List.forall_mem_cons.mp separate
      rw [requests, requests, ← first.reading? one other, read, ih further]
  | case7 argument rest leading text read ih =>
      obtain ⟨first, further⟩ := List.forall_mem_cons.mp separate
      have kept := (first.read one).1.joinedPrompt read
      rw [requests, requests, ← first.reading? one other, read]
      simp only
      rw [kept, kept, ih further]
  | case8 argument leading read =>
      obtain ⟨first, _⟩ := List.forall_mem_cons.mp separate
      rw [requests.eq_2 one, requests.eq_2 other, ← first.reading? one other, read]
  | case9 argument leading read next others operand ih =>
      obtain ⟨first, further⟩ := List.forall_mem_cons.mp separate
      obtain ⟨second, further⟩ := List.forall_mem_cons.mp further
      rw [second.isOperand_eq one other] at operand
      rw [requests.eq_2 one, requests.eq_2 other, ← first.reading? one other, read]
      simp only [second.isOperand_eq one other]
      rw [if_pos operand, if_pos operand, ih further]
  | case10 argument leading read next others operand ih =>
      obtain ⟨first, further⟩ := List.forall_mem_cons.mp separate
      obtain ⟨second, _⟩ := List.forall_mem_cons.mp further
      rw [second.isOperand_eq one other] at operand
      rw [requests.eq_2 one, requests.eq_2 other, ← first.reading? one other, read]
      simp only [second.isOperand_eq one other]
      rw [if_neg operand, if_neg operand, ih further]

/-- The editions differ in nothing but what is joined to the letter of a flag, and
in `--` where it is joined to a word. -/
theorem Options.ofArguments_of_separate {arguments : List String}
    (separate : ∀ argument ∈ arguments, IsSeparate argument) (one other : Edition) :
    Options.ofArguments one arguments = Options.ofArguments other arguments := by
  have ambiguous (argument : String) : (Argument.read one argument.toList == .ambiguous) =
      (Argument.read other argument.toList == .ambiguous) := by
    rw [Bool.eq_iff_iff, beq_iff_eq, beq_iff_eq, Argument.read_eq_ambiguous_iff,
      Argument.read_eq_ambiguous_iff]
  have leading : ∀ argument ∈ arguments.takeWhile (· != separator), IsSeparate argument :=
    fun argument member => separate argument ((List.takeWhile_prefix _).subset member)
  simp only [Options.ofArguments, Request.ofArguments, ambiguous,
    requests_of_separate leading one other]

example : Options.ofArguments .early ["-v=D"] = .ok { verbose := true, task := .list } ∧
    Options.ofArguments .revised ["-v=D"] =
      .error (.usage (.needlessText .verbose "D")) := by
  decide +kernel

end WordCalc.CommandLine
