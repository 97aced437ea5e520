import WordCalc.CommandLine.Report
import WordCalc.Proofs.Entries
import WordCalc.Proofs.Flags
import WordCalc.Proofs.Spacing

/-!
A listing can be taken apart again.

Neither tokens nor entries hold a tab or a line feed, although tokens may hold
blanks of other kinds. So what is written falls apart into its lines, and a line
into its two columns: the tokens of the input, and what they do.
-/

namespace WordCalc

namespace Text

/-- The pieces of a text between the places where a character stands. -/
def cut (place : Char) (text : String) : List String :=
  (text.toList.splitOn place).map String.ofList

private theorem beq_of_absent {place : Char} {text : String} (absent : place ∉ text.toList) :
    ∀ c ∈ text.toList, (c == place) = false :=
  fun _ member => beq_eq_false_iff_ne.mpr (ne_of_mem_of_not_mem member absent)

theorem cut_of_not_mem {place : Char} {text : String} (absent : place ∉ text.toList) :
    cut place text = [text] := by
  rw [cut, List.splitOn_eq_splitOnP, List.splitOnP_eq_singleton (beq_of_absent absent),
    List.map_singleton, String.ofList_toList]

theorem cut_append {place : Char} {front : String} (absent : place ∉ front.toList)
    (rest : String) :
    cut place (front ++ String.singleton place ++ rest) = front :: cut place rest := by
  have whole : (front ++ String.singleton place ++ rest).toList =
      front.toList ++ place :: rest.toList := by
    simp [String.toList_append]
  rw [cut, whole, List.splitOn_eq_splitOnP,
    List.splitOnP_append_cons_of_forall_mem (beq_of_absent absent) place (by simp),
    List.map_cons, String.ofList_toList]
  rfl

def FitsColumn (text : String) : Prop :=
  '\t' ∉ text.toList ∧ '\n' ∉ text.toList

instance (text : String) : Decidable (FitsColumn text) :=
  inferInstanceAs (Decidable (_ ∧ _))

theorem FitsColumn.append {first second : String} (firstFits : FitsColumn first)
    (secondFits : FitsColumn second) : FitsColumn (first ++ second) := by
  simp only [FitsColumn, String.toList_append, List.mem_append, not_or]
  exact ⟨⟨firstFits.1, secondFits.1⟩, firstFits.2, secondFits.2⟩

theorem fitsColumn_of_isWord {token : String} (isWord : IsWord token.toList) :
    FitsColumn token := by
  constructor
  · intro member
    cases isWord.2 _ member
  · intro member
    cases isWord.2 _ member

end Text

theorem Numeral.not_mem_decimal {c : Char} (noSign : c ≠ '-') (noDigit : c.isDigit = false)
    (number : Int) : c ∉ decimal number := by
  have noneOf (digits : Nat) : c ∉ Nat.toDigits 10 digits := by
    intro member
    rw [Nat.isDigit_of_mem_toDigits (by decide) (by decide) member] at noDigit
    cases noDigit
  rw [decimal]
  split
  · exact List.not_mem_cons_of_ne_of_not_mem noSign (noneOf number.natAbs)
  · exact noneOf number.natAbs

theorem Value.fitsColumn_description (value : Value) : Text.FitsColumn value.description := by
  have name : Text.FitsColumn value.signedness.name := by
    cases value.signedness with
    | unsigned => decide
    | signed => decide
  have numeral : Text.FitsColumn (String.ofList (Numeral.decimal value.payload)) := by
    rw [Text.FitsColumn, String.toList_ofList]
    exact ⟨Numeral.not_mem_decimal (by decide) rfl value.payload,
      Numeral.not_mem_decimal (by decide) rfl value.payload⟩
  exact ((name.append (by decide)).append numeral).append (by decide)

theorem Operator.fitsColumn_label (operator : Operator) : Text.FitsColumn operator.label := by
  have every : ∀ operator ∈ all, Text.FitsColumn operator.label := by decide
  exact every operator (mem_all operator)

theorem Operation.fitsColumn_label (operation : Operation) : Text.FitsColumn operation.label := by
  cases operation with
  | push value =>
      exact (Text.FitsColumn.append (by decide) value.fitsColumn_description).append (by decide)
  | apply operator => exact operator.fitsColumn_label

theorem Listing.fitsColumn_entry {token : String} (fits : Text.FitsColumn token) :
    Text.FitsColumn (entry token) := by
  rw [entry]
  cases read : Operation.parse token with
  | ok operation => exact operation.fitsColumn_label
  | error fault =>
      rw [Operation.fault_of_parse read]
      exact (Text.FitsColumn.append (by decide) fits).append (by decide)

namespace CommandLine

/-! ### Listings -/

theorem cut_unlines {lines : List String} (fit : ∀ line ∈ lines, '\n' ∉ line.toList) :
    Text.cut '\n' (unlines lines) = lines ++ [""] := by
  induction lines with
  | nil => rfl
  | cons line rest ih =>
      obtain ⟨here, further⟩ := List.forall_mem_cons.mp fit
      have first := Text.cut_append here (unlines rest)
      rw [ih further] at first
      rw [unlines, List.map_cons, String.join_cons]
      exact first

theorem cut_line {token : String} (fits : Text.FitsColumn token) :
    Text.cut '\t' (Listing.line token) = [token, Listing.entry token] := by
  have front := Text.cut_append fits.1 (Listing.entry token)
  rw [Text.cut_of_not_mem (Listing.fitsColumn_entry fits).1] at front
  exact front

theorem rows_unlines_listing (lines : List String) :
    (Text.cut '\n' (unlines (Listing.ofLines lines))).map (Text.cut '\t') =
      ["<token>", "<operation>"] ::
        (lines.flatMap Text.tokens).map (fun token => [token, Listing.entry token]) ++ [[""]] := by
  have fits : ∀ token ∈ lines.flatMap Text.tokens, Text.FitsColumn token := by
    intro token member
    obtain ⟨line, _, inLine⟩ := List.mem_flatMap.mp member
    exact Text.fitsColumn_of_isWord (Text.isWord_of_mem_tokens inLine)
  have noFeed : ∀ line ∈ Listing.ofLines lines, '\n' ∉ line.toList := by
    rw [Listing.ofLines, List.forall_mem_cons, List.forall_mem_map]
    refine ⟨by decide, ?_⟩
    intro token member
    simp only [Listing.line, String.toList_append, List.mem_append, not_or]
    exact ⟨⟨(fits token member).2, by decide⟩, (Listing.fitsColumn_entry (fits token member)).2⟩
  have rows : ((lines.flatMap Text.tokens).map Listing.line).map (Text.cut '\t') =
      (lines.flatMap Text.tokens).map fun token => [token, Listing.entry token] := by
    rw [List.map_map]
    exact List.map_congr_left fun token member => cut_line (fits token member)
  rw [cut_unlines noFeed, Listing.ofLines, List.map_append, List.map_cons, rows]
  rfl

inductive Listed (lines : List String) : List String → Surroundings → Prop
  | standardInput {flags : List String} {surroundings : Surroundings} :
      (∀ flag ∈ flags, IsFlag flag) → (∃ flag ∈ flags, flag ∈ listingArguments) →
        surroundings.atTerminal = false → Text.lines surroundings.standardInput = lines →
          Listed lines flags surroundings
  | arguments {flags : List String} {surroundings : Surroundings} :
      (∀ flag ∈ flags, IsFlag flag) → (∃ flag ∈ flags, flag ∈ listingArguments) →
        (∀ line ∈ lines, line ≠ "--" ∧ ¬ ['-', '-', '='] <+: line.toList) →
          Listed lines (flags ++ "-e" :: lines) surroundings

private theorem report_eq_listing {options : Options} {arguments : List String}
    {surroundings : Surroundings}
    (read : Options.ofArguments surroundings.edition arguments = .ok options)
    (lists : options.task = .list)
    (unprompted : options.prompting surroundings.atTerminal = none) :
    report arguments surroundings =
      { stdout := unlines (Listing.ofLines (options.input surroundings)) } := by
  rw [report_of_list read lists, Options.reportListing, unprompted]

theorem Listed.report_eq {lines arguments : List String} {surroundings : Surroundings}
    (listed : Listed lines arguments surroundings) :
    report arguments surroundings = { stdout := unlines (Listing.ofLines lines) } := by
  cases listed with
  | standardInput areFlags lists noTerminal given =>
      have unprompted :
          (({} : Options).withFlags arguments).prompting surroundings.atTerminal = none := by
        rw [noTerminal]
        rfl
      have input : (({} : Options).withFlags arguments).input surroundings = lines := by
        rw [← given, Options.input, unprompted]
        rfl
      rw [report_eq_listing (options_of_flags areFlags _) (Options.withFlags_lists {} lists)
        unprompted, input]
  | arguments areFlags lists plain =>
      exact report_eq_listing (options_of_lines areFlags plain _)
        (Options.withFlags_lists {} lists) rfl

/-- What is written of a listing falls apart at line feeds into a row for each
token of the lines, under the headings, and a row falls apart at its tab into the
token and its entry. The entry tells what the token does in any state, and the
description in it tells the value that is pushed. -/
theorem listing_comes_apart {lines arguments : List String} {surroundings : Surroundings}
    (listed : Listed lines arguments surroundings) :
    let shown := report arguments surroundings
    shown.status = 0 ∧ shown.stderr = "" ∧
      (Text.cut '\n' shown.stdout).map (Text.cut '\t') =
        ["<token>", "<operation>"] ::
          (lines.flatMap Text.tokens).map (fun token => [token, Listing.entry token]) ++ [[""]] ∧
      (∀ token, Listing.Tells token (Listing.entry token)) ∧
      (∀ first second, Listing.entry first = Listing.entry second →
        ∀ state : State, state.feed first = state.feed second) ∧
      ∀ first second : Value, first.description = second.description →
        first.signedness = second.signedness ∧ first.payload = second.payload := by
  intro shown
  have written : shown = { stdout := unlines (Listing.ofLines lines) } := listed.report_eq
  rw [written]
  refine ⟨rfl, rfl, rows_unlines_listing lines, Listing.tells_entry, ?_, ?_⟩
  · intro first second same state
    rw [State.feed, State.feed, Listing.parse_eq_of_entry_eq same]
  · intro first second same
    rw [Value.description_injective same]
    exact ⟨rfl, rfl⟩

/-- A token behind a quit is listed too, and one with a no-break space in it is a
single token. -/
theorem listing_comes_apart_behind_quit :
    let surroundings : Surroundings := { standardInput := "2 q\r\n-0x1\u00a05 \t-0x1\nx" }
    let arguments := ["-v", "--dump"]
    Listed ["2 q", "-0x1\u00a05 \t-0x1", "x"] arguments surroundings ∧
      (Text.cut '\n' (report arguments surroundings).stdout).map (Text.cut '\t') =
        [["<token>", "<operation>"], ["2", "Push(value=Unsigned(2))"], ["q", "ControlOp.QUIT"],
          ["-0x1\u00a05", "Invalid input: '-0x1\u00a05'"], ["-0x1", "Push(value=Signed(-1))"],
          ["x", "CalcOp.XOR"], [""]] := by
  intro surroundings arguments
  have areFlags : ∀ flag ∈ arguments, IsFlag flag :=
    List.forall_mem_cons.mpr ⟨.inl (by decide), List.forall_mem_singleton.mpr (.inr (by decide))⟩
  have lists : ∃ flag ∈ arguments, flag ∈ listingArguments := by decide
  have listed : Listed ["2 q", "-0x1\u00a05 \t-0x1", "x"] arguments surroundings :=
    .standardInput areFlags lists rfl (by decide +kernel)
  obtain ⟨_, _, rows, _⟩ := listing_comes_apart listed
  refine ⟨listed, ?_⟩
  rw [rows]
  decide +kernel

/-- Every word of a flag begins with what stands in front of the equals sign, so
such a line is refused as ambiguous even behind the flag for lines. -/
theorem listing_refused_for_ambiguous_line :
    let lines := ["--=a"]
    let shown := report ("-D" :: "-e" :: lines) {}
    "--" ∉ lines ∧ shown.status = 2 ∧ shown.stdout = "" := by
  decide +kernel

end CommandLine

end WordCalc
