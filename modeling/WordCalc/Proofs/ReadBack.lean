import Mathlib.Data.List.DropRight
import WordCalc.Proofs.Denotation
import WordCalc.Proofs.Run
import WordCalc.Proofs.Word

/-!
What the machine prints can be read back.

A printed line is the numeral of a value, in a column of fixed width, and the
letters of its signedness. The numeral denotes a word with the pattern of the
value, if not always with its signedness. The letters tell when to reinterpret,
so the tokens of a line rebuild the value, and the tokens of a printed stack
rebuild the stack.
-/

namespace WordCalc

namespace Text

def isBlank (c : Char) : Bool :=
  c == ' '

def strip (chars : List Char) : List Char :=
  (chars.dropWhile isBlank).rdropWhile isBlank

/-- The tokens that rebuild the value of a printed line: what stands in front of
its three letters, and a reinterpretation if these are the letters of a signed
value. -/
def tokensOfLine (line : String) : List String :=
  let stripped := strip line.toList
  String.ofList (stripped.rdrop 3) ::
    if stripped.rtake 3 = ['i', '6', '4'] then ["i"] else []

private theorem strip_append {shown : List Char} (noBlank : ∀ c ∈ shown, isBlank c = false)
    (count : Nat) : strip (List.replicate count ' ' ++ shown) = shown := by
  have front : (List.replicate count ' ' ++ shown).dropWhile isBlank = shown := by
    rw [List.dropWhile_append_of_pos]
    · cases shown with
      | nil => rfl
      | cons first rest =>
          have firstShown := noBlank first List.mem_cons_self
          exact List.dropWhile_cons_of_neg (by simp [firstShown])
    · intro c member
      rw [List.eq_of_mem_replicate member]
      rfl
  rw [strip, front, List.rdropWhile_eq_self_iff]
  intro nonempty
  simp [noBlank _ (List.getLast_mem nonempty)]

private theorem suffix_no_blank (signedness : Signedness) :
    ∀ c ∈ signedness.suffix.toList, isBlank c = false := by
  cases signedness <;> simp [Signedness.suffix, isBlank]

private theorem tokensOfLine_append {numeral : List Char}
    (noBlank : ∀ c ∈ numeral, isBlank c = false) (count : Nat) (signedness : Signedness) :
    tokensOfLine (String.ofList (List.replicate count ' ' ++ numeral) ++ signedness.suffix) =
      String.ofList numeral ::
        (match signedness with
        | .unsigned => []
        | .signed => ["i"]) := by
  have stripped : strip
      (String.ofList (List.replicate count ' ' ++ numeral) ++ signedness.suffix).toList =
        numeral ++ signedness.suffix.toList := by
    rw [String.toList_append, String.toList_ofList, List.append_assoc]
    apply strip_append
    intro c member
    rcases List.mem_append.mp member with inNumeral | inSuffix
    · exact noBlank c inNumeral
    · exact suffix_no_blank signedness c inSuffix
  have length : signedness.suffix.toList.length = 3 := by
    cases signedness <;> decide
  have front : (numeral ++ signedness.suffix.toList).rdrop 3 = numeral := by
    rw [List.rdrop, List.length_append, length, Nat.add_sub_cancel, List.take_left]
  have letters : (numeral ++ signedness.suffix.toList).rtake 3 = signedness.suffix.toList := by
    rw [List.rtake, List.length_append, length, Nat.add_sub_cancel, List.drop_left]
  simp only [tokensOfLine, stripped, front, letters]
  cases signedness with
  | unsigned => rfl
  | signed => rfl

end Text

theorem Denotes.no_blank {chars : List Char} {value : Value} (denotes : Denotes chars value) :
    ∀ c ∈ chars, Text.isBlank c = false := by
  obtain ⟨⟨form, sign, digits⟩, wellFormed, rfl, _⟩ := Literal.exists_literal_of_denotes denotes
  intro c member
  rcases List.mem_append.mp member with inLead | inMagnitude
  · have shown : ∀ c ∈ form.lead, Text.isBlank c = false := by
      cases form <;> simp [Form.lead, Text.isBlank]
    exact shown c inLead
  · rcases List.mem_append.mp inMagnitude with inSign | inDigits
    · have shown : ∀ c ∈ sign.text, Text.isBlank c = false := by
        cases sign <;> simp [Sign.text, Text.isBlank]
      exact shown c inSign
    · have isDigit := wellFormed.2.1 c inDigits
      rw [Text.isBlank, beq_eq_false_iff_ne]
      intro blank
      subst blank
      cases isDigit

namespace Value

/-- What is printed of a value in a radix, without blanks and letters. -/
def numeral (radix : Radix) (value : Value) : List Char :=
  match radix with
  | .binary => value.digits .binary
  | .decimal => value.digits .plain
  | .hexadecimal => value.digits .hexadecimal

theorem digits_eq_numeral (radix : Radix) (value : Value) :
    ∃ count, value.digits radix.layout = List.replicate count ' ' ++ value.numeral radix := by
  cases radix with
  | binary => exact ⟨0, rfl⟩
  | decimal => exact ⟨_, rfl⟩
  | hexadecimal => exact ⟨0, rfl⟩

private theorem pattern_denotes (lead : List Char) (base : Nat)
    (isLead : (lead, base) ∈ [(['0', 'b'], 2), (['0', 'x'], 16)]) (width : Nat)
    (bits : BitVec 64) :
    Denotes (lead ++ (Nat.toDigits base bits.toNat).leftpad width '0')
      { signedness := .unsigned, bits } := by
  have range : 2 ≤ base ∧ base ≤ 16 := by
    simp only [List.mem_cons, List.not_mem_nil, or_false, Prod.mk.injEq] at isLead
    omega
  have writes := (Numeral.writes_toDigits range.1 range.2 bits.toNat).leftpad range.1 width
  have below := bits.isLt
  rw [← ofInt_toNat]
  exact @Denotes.word lead [] _ base _ isLead (by decide) writes (by omega)

/-- The decimal numeral of a payload denotes a word with the bits of the value. -/
private theorem decimal_denotes (value : Value) :
    ∃ signedness, Denotes (Numeral.decimal value.payload) (ofInt signedness value.payload) ∧
      (value.signedness = .unsigned → signedness = .unsigned) := by
  obtain ⟨above, below⟩ := value.payload_bounds
  have writes : Numeral.Writes 10 (Nat.toDigits 10 value.payload.natAbs) value.payload.natAbs :=
    Numeral.writes_toDigits (by decide) (by decide) _
  unfold Numeral.decimal
  by_cases negative : value.payload < 0
  · have magnitude : value.payload = -(value.payload.natAbs : Int) := by omega
    have same : ofInt .signed value.payload = ofInt .signed (-(value.payload.natAbs : Int)) :=
      congrArg (ofInt .signed) magnitude
    refine ⟨.signed, ?_, ?_⟩
    · simp only [if_pos negative]
      rw [same]
      exact .negative writes (by omega)
    · intro unsigned
      have natural : 0 ≤ value.payload := by
        rw [payload, unsigned]
        exact Int.natCast_nonneg _
      omega
  · have magnitude : value.payload = (value.payload.natAbs : Int) := by omega
    have same : ofInt .unsigned value.payload = ofInt .unsigned (value.payload.natAbs : Int) :=
      congrArg (ofInt .unsigned) magnitude
    refine ⟨.unsigned, ?_, fun _ => rfl⟩
    simp only [if_neg negative]
    rw [same]
    exact @Denotes.decimal [] _ _ (by decide) writes (by omega)

/-- The numeral denotes a word with the same bits, and the value itself if it is
unsigned. -/
theorem numeral_denotes (radix : Radix) (value : Value) :
    ∃ read, Denotes (value.numeral radix) read ∧ read.bits = value.bits ∧
      (value.signedness = .unsigned → read.signedness = .unsigned) := by
  cases radix with
  | binary =>
      exact ⟨⟨.unsigned, value.bits⟩, pattern_denotes ['0', 'b'] 2 (by decide) 64 value.bits, rfl,
        fun _ => rfl⟩
  | hexadecimal =>
      exact ⟨⟨.unsigned, value.bits⟩, pattern_denotes ['0', 'x'] 16 (by decide) 16 value.bits, rfl,
        fun _ => rfl⟩
  | decimal =>
      obtain ⟨signedness, denotes, unsigned⟩ := decimal_denotes value
      exact ⟨_, denotes, bits_ofInt_payload signedness value, unsigned⟩

theorem tokensOfLine_format (radix : Radix) (value : Value) :
    Text.tokensOfLine (radix.format value) =
      String.ofList (value.numeral radix) ::
        (match value.signedness with
        | .unsigned => []
        | .signed => ["i"]) := by
  obtain ⟨count, digits⟩ := digits_eq_numeral radix value
  obtain ⟨read, denotes, _⟩ := numeral_denotes radix value
  rw [Radix.format, text, digits]
  exact Text.tokensOfLine_append denotes.no_blank count value.signedness

end Value

/-! ### Feeding the tokens back -/

def stepsOfLine (line : String) : List Step :=
  (Text.tokensOfLine line).map .token

private theorem step_token_of_denotes {chars : List Char} {value : Value}
    (denotes : Denotes chars value) (state : State) :
    state.step (.token (String.ofList chars)) =
      { result := .ok (some false), lines := []
        state := { state with stack := value :: state.stack } } := by
  have read : Value.parse (String.ofList chars) = .ok value := by
    rw [Value.parse_eq_ok_iff, String.toList_ofList]
    exact denotes
  have noSymbol : ¬ ∃ operator : Operator, (String.ofList chars).toList = [operator.symbol] := by
    intro named
    obtain ⟨operator, same⟩ := named
    rw [String.toList_ofList] at same
    rw [same] at denotes
    exact operator.not_denotes_symbol value denotes
  have asked : Operation.parse (String.ofList chars) = .ok (.push value) := by
    rw [Operation.parse_of_no_symbol noSymbol, read]
    rfl
  rw [State.step, Step.operation?, asked]
  rfl

private theorem step_token_i (value : Value) (rest : List Value) (registers : Registers)
    (radix : Radix) :
    (State.mk (value :: rest) registers radix).step (.token "i") =
      { result := .ok (some false), lines := []
        state := ⟨value.reinterpret .signed :: rest, registers, radix⟩ } := by
  have asked : Operation.parse "i" = .ok (.apply (.unary .toSigned)) := by
    rw [Operation.parse_eq_apply_iff]
    rfl
  rw [State.step, Step.operation?, asked]
  rfl

theorem reaches_of_line (radix : Radix) (value : Value) (state : State) :
    state.Reaches (stepsOfLine (radix.format value))
      { state with stack := value :: state.stack } := by
  obtain ⟨read, denotes, sameBits, unsigned⟩ := value.numeral_denotes radix
  have pushed := State.Reaches.of_step (step_token_of_denotes denotes state)
  obtain ⟨signedness, bits⟩ := value
  obtain ⟨readSignedness, readBits⟩ := read
  obtain rfl : readBits = bits := sameBits
  unfold stepsOfLine
  rw [Value.tokensOfLine_format]
  cases signedness with
  | unsigned =>
      obtain rfl : readSignedness = .unsigned := unsigned rfl
      exact pushed
  | signed =>
      exact pushed.append (.of_step (step_token_i _ state.stack state.registers state.radix))

theorem reaches_of_lines (radix : Radix) (values : List Value) (state : State) :
    state.Reaches ((values.map radix.format).flatMap stepsOfLine)
      { state with stack := values.reverse ++ state.stack } := by
  induction values generalizing state with
  | nil => exact State.Reaches.nil state
  | cons value rest ih =>
      have further := ih { state with stack := value :: state.stack }
      rw [List.map_cons, List.flatMap_cons, List.reverse_cons, List.append_assoc]
      exact (reaches_of_line radix value state).append further

namespace Radix

def columns : Radix → Nat
  | .binary => 69
  | .decimal => 23
  | .hexadecimal => 21

private theorem length_leftpad_of_le {chars : List Char} {width : Nat}
    (short : chars.length ≤ width) (c : Char) : (chars.leftpad width c).length = width := by
  rw [List.length_leftpad]
  omega

private theorem length_toDigits_le {base width number : Nat} (two : 2 ≤ base)
    (positive : 0 < width) (small : number < base ^ width) :
    (Nat.toDigits base number).length ≤ width :=
  (Nat.length_toDigits_le_iff two positive).mpr small

/-- No payload takes more than the twenty columns: a minus sign stands in front
of at most nineteen digits. -/
private theorem length_decimal_payload_le (value : Value) :
    (Numeral.decimal value.payload).length ≤ 20 := by
  obtain ⟨above, below⟩ := value.payload_bounds
  unfold Numeral.decimal
  by_cases negative : value.payload < 0
  · have digits : (Nat.toDigits 10 value.payload.natAbs).length ≤ 19 :=
      length_toDigits_le (by decide) (by decide) (by omega)
    simp only [if_pos negative, List.length_cons]
    omega
  · have digits : (Nat.toDigits 10 value.payload.natAbs).length ≤ 20 :=
      length_toDigits_le (by decide) (by decide) (by omega)
    simp only [if_neg negative]
    exact digits

theorem length_format (radix : Radix) (value : Value) :
    (radix.format value).length = radix.columns := by
  have suffix : value.signedness.suffix.length = 3 := by
    cases value.signedness <;> decide
  have below := value.bits.isLt
  have digits : (value.digits radix.layout).length + 3 = radix.columns := by
    cases radix with
    | binary =>
        have short : (Nat.toDigits 2 value.bits.toNat).length ≤ 64 :=
          length_toDigits_le (by decide) (by decide) below
        have width := length_leftpad_of_le short '0'
        change ((Nat.toDigits 2 value.bits.toNat).leftpad 64 '0').length + 2 + 3 = 69
        omega
    | decimal =>
        have width := length_leftpad_of_le (length_decimal_payload_le value) ' '
        change ((Numeral.decimal value.payload).leftpad 20 ' ').length + 3 = 23
        omega
    | hexadecimal =>
        have short : (Nat.toDigits 16 value.bits.toNat).length ≤ 16 :=
          length_toDigits_le (by decide) (by decide) (by omega)
        have width := length_leftpad_of_le short '0'
        change ((Nat.toDigits 16 value.bits.toNat).leftpad 16 '0').length + 2 + 3 = 21
        omega
  rw [format, Value.text, String.length_append, String.length_ofList, suffix, digits]

end Radix

/-- The stack is printed bottom first, a line for each value, and every line of
a radix has one width. The tokens of these lines, fed to a fresh machine, all
succeed and rebuild the stack. -/
theorem printed_stack_rebuilds (state : State) :
    ∃ reply, state.feed "f" = .ok reply ∧
      reply.lines = state.stack.reverse.map state.radix.format ∧
      State.initial.Reaches (reply.lines.flatMap stepsOfLine)
        { State.initial with stack := state.stack } ∧
      ∀ (radix : Radix) (value : Value), (radix.format value).length = radix.columns := by
  have asked : Operation.parse "f" = .ok (.apply .printStack) := by
    rw [Operation.parse_eq_apply_iff]
    rfl
  refine ⟨{ quit := false, lines := state.stack.reverse.map state.radix.format, state },
    ?_, rfl, ?_, Radix.length_format⟩
  · rw [State.feed, asked]
    rfl
  · have rebuilt := reaches_of_lines state.radix state.stack.reverse .initial
    have empty : State.initial.stack = [] := rfl
    rw [List.reverse_reverse, empty, List.append_nil] at rebuilt
    exact rebuilt

end WordCalc
