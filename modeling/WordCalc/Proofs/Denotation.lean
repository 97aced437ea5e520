import WordCalc.Operation
import WordCalc.Proofs.Positional

/-!
The grammar of literals, and what reading a token comes to.

`Denotes` gives the four ways to write a value, each with the numbers that it
admits. Reading accepts a text exactly when it denotes a value, and gives that
value. The count of digits, by which long numerals are refused before they are
converted, refuses nothing that the ranges would admit.
-/

namespace WordCalc

/-- The text denotes the value: a word in binary or hexadecimal, the negation
of a signed word in these bases, a decimal word, or a negative decimal. -/
inductive Denotes : List Char → Value → Prop
  | word {lead plus digits : List Char} {base number : Nat} :
      (lead, base) ∈ [(['0', 'b'], 2), (['0', 'x'], 16)] →
        plus ∈ [[], ['+']] →
        Numeral.Writes base digits number → number ≤ 2 ^ 64 - 1 →
          Denotes (lead ++ (plus ++ digits)) (.ofInt .unsigned number)
  | negated {lead sign digits : List Char} {base number : Nat} {factor : Int} :
      (lead, base) ∈ [(['-', '0', 'b'], 2), (['-', '0', 'x'], 16)] →
        (sign, factor) ∈ [([], 1), (['+'], 1), (['-'], -1)] →
        Numeral.Writes base digits number →
        -2 ^ 63 ≤ factor * number → factor * number ≤ 2 ^ 63 - 1 →
          Denotes (lead ++ (sign ++ digits)) (.ofInt .signed (-(factor * number)))
  | decimal {plus digits : List Char} {number : Nat} :
      plus ∈ [[], ['+']] →
        Numeral.Writes 10 digits number → number ≤ 2 ^ 64 - 1 →
          Denotes (plus ++ digits) (.ofInt .unsigned number)
  | negative {digits : List Char} {number : Nat} :
      Numeral.Writes 10 digits number → number ≤ 2 ^ 63 →
        Denotes ('-' :: digits) (.ofInt .signed (-number))

namespace Literal

/-- What `value?` would give without counting digits first. -/
def valueInRange? (literal : Literal) : Option Value :=
  if literal.form.negates then
    if -0x8000_0000_0000_0000 ≤ literal.number ∧ literal.number < 0x8000_0000_0000_0000 then
      some (.ofInt .signed (-literal.number))
    else none
  else if literal.sign = .minus then
    if -0x8000_0000_0000_0000 ≤ literal.number then some (.ofInt .signed literal.number)
    else none
  else
    if literal.number < 0x1_0000_0000_0000_0000 then some (.ofInt .unsigned literal.number)
    else none

def magnitude (literal : Literal) : Nat :=
  Numeral.value literal.form.base literal.digits

theorem WellFormed.writes {literal : Literal} (wellFormed : literal.WellFormed) :
    Numeral.Writes literal.form.base literal.digits literal.magnitude := by
  have sixteen : literal.form.base ≤ 16 := by
    cases literal.form <;> decide
  exact (Numeral.writes_iff sixteen _ _).mpr ⟨wellFormed.1, wellFormed.2.1, rfl⟩

/-- A numeral with more digits than its form needs is beyond all words. -/
theorem two_pow_le_magnitude {literal : Literal} (wellFormed : literal.WellFormed)
    (long : literal.form.width < (Numeral.significant literal.digits).length) :
    2 ^ 64 ≤ literal.magnitude := by
  obtain ⟨two, sixteen, positive, enough⟩ :
      2 ≤ literal.form.base ∧ literal.form.base ≤ 16 ∧ 0 < literal.form.width ∧
        2 ^ 64 ≤ literal.form.base ^ literal.form.width := by
    cases literal.form <;> decide
  exact enough.trans (Numeral.pow_le_value two sixteen wellFormed.2.1 positive long)

theorem number_cases (literal : Literal) :
    literal.sign = .minus ∧ literal.number = -literal.magnitude ∨
      literal.sign ≠ .minus ∧ literal.number = literal.magnitude := by
  unfold number magnitude
  cases literal.sign with
  | absent => exact Or.inr ⟨by decide, rfl⟩
  | plus => exact Or.inr ⟨by decide, rfl⟩
  | minus => exact Or.inl ⟨rfl, rfl⟩

theorem value?_eq_valueInRange? {literal : Literal} (wellFormed : literal.WellFormed) :
    literal.value? = literal.valueInRange? := by
  unfold value?
  split
  · rename_i long
    have large := two_pow_le_magnitude wellFormed long
    unfold valueInRange?
    rcases number_cases literal with ⟨minus, number⟩ | ⟨noMinus, number⟩
    · have notSigned : ¬ (-0x8000_0000_0000_0000 ≤ literal.number ∧
          literal.number < 0x8000_0000_0000_0000) := by omega
      have tooSmall : ¬ -0x8000_0000_0000_0000 ≤ literal.number := by omega
      rw [if_neg notSigned, if_pos minus, if_neg tooSmall, ite_self]
    · have notSigned : ¬ (-0x8000_0000_0000_0000 ≤ literal.number ∧
          literal.number < 0x8000_0000_0000_0000) := by omega
      have tooLarge : ¬ literal.number < 0x1_0000_0000_0000_0000 := by omega
      rw [if_neg notSigned, if_neg noMinus, if_neg tooLarge, ite_self]
  · rfl

private theorem eq_decimal {form : Form} (plain : form.negates = false)
    (allowed : form.allowsMinus = true) : form = .decimal := by
  cases form with
  | decimal => rfl
  | binary => cases allowed
  | hexadecimal => cases allowed
  | negatedBinary => cases plain
  | negatedHexadecimal => cases plain

private theorem denotes_negated {literal : Literal} (wellFormed : literal.WellFormed)
    (negates : literal.form.negates = true) (above : -2 ^ 63 ≤ literal.number)
    (below : literal.number < 2 ^ 63) :
    Denotes literal.text (.ofInt .signed (-literal.number)) := by
  have lead : (literal.form.lead, literal.form.base) ∈
      [(['-', '0', 'b'], 2), (['-', '0', 'x'], 16)] := by
    cases form : literal.form with
    | negatedBinary => decide
    | negatedHexadecimal => decide
    | _ =>
        rw [form] at negates
        cases negates
  obtain ⟨factor, sign, number⟩ : ∃ factor : Int,
      (literal.sign.text, factor) ∈ [([], 1), (['+'], 1), (['-'], -1)] ∧
        literal.number = factor * literal.magnitude := by
    unfold Literal.number Literal.magnitude
    cases literal.sign with
    | absent => exact ⟨1, by decide, (Int.one_mul _).symm⟩
    | plus => exact ⟨1, by decide, (Int.one_mul _).symm⟩
    | minus => exact ⟨-1, by decide, (Int.neg_one_mul _).symm⟩
  rw [number] at above below ⊢
  exact .negated lead sign wellFormed.writes above (by omega)

private theorem denotes_negative {literal : Literal} (wellFormed : literal.WellFormed)
    (plain : literal.form.negates = false) (minus : literal.sign = .minus)
    (above : -2 ^ 63 ≤ literal.number) :
    Denotes literal.text (.ofInt .signed literal.number) := by
  have writes := wellFormed.writes
  have number : literal.number = -literal.magnitude := by
    rw [Literal.number, minus]
    rfl
  have form : literal.form = .decimal := eq_decimal plain (wellFormed.2.2 minus)
  have text : literal.text = '-' :: literal.digits := by
    rw [Literal.text, form, minus]
    rfl
  rw [form] at writes
  rw [text, number]
  exact .negative writes (by omega)

private theorem denotes_positive {literal : Literal} (wellFormed : literal.WellFormed)
    (plain : literal.form.negates = false) (noMinus : literal.sign ≠ .minus)
    (below : literal.number < 2 ^ 64) :
    Denotes literal.text (.ofInt .unsigned literal.number) := by
  have writes := wellFormed.writes
  have number : literal.number = literal.magnitude := by
    rcases number_cases literal with ⟨minus, _⟩ | ⟨_, number⟩
    · exact absurd minus noMinus
    · exact number
  have plus : literal.sign.text ∈ [[], ['+']] := by
    cases sign : literal.sign with
    | absent => decide
    | plus => decide
    | minus => exact absurd sign noMinus
  have small : literal.magnitude ≤ 2 ^ 64 - 1 := by omega
  rw [number]
  cases form : literal.form with
  | binary =>
      rw [form] at writes
      rw [Literal.text, form]
      exact .word (by decide) plus writes small
  | hexadecimal =>
      rw [form] at writes
      rw [Literal.text, form]
      exact .word (by decide) plus writes small
  | decimal =>
      rw [form] at writes
      rw [Literal.text, form]
      change Denotes (literal.sign.text ++ literal.digits) _
      exact .decimal plus writes small
  | negatedBinary =>
      rw [form] at plain
      cases plain
  | negatedHexadecimal =>
      rw [form] at plain
      cases plain

theorem denotes_of_valueInRange? {literal : Literal} (wellFormed : literal.WellFormed)
    {value : Value} (found : literal.valueInRange? = some value) :
    Denotes literal.text value := by
  unfold valueInRange? at found
  split at found
  · rename_i negates
    simp only [Option.ite_none_right_eq_some, Option.some.injEq] at found
    obtain ⟨⟨above, below⟩, rfl⟩ := found
    exact denotes_negated wellFormed negates above below
  · rename_i plain
    rw [Bool.not_eq_true] at plain
    split at found
    · rename_i minus
      simp only [Option.ite_none_right_eq_some, Option.some.injEq] at found
      obtain ⟨above, rfl⟩ := found
      exact denotes_negative wellFormed plain minus above
    · rename_i noMinus
      simp only [Option.ite_none_right_eq_some, Option.some.injEq] at found
      obtain ⟨below, rfl⟩ := found
      exact denotes_positive wellFormed plain noMinus below

/-! ### Whatever denotes a value is a literal -/

private theorem wellFormed_of_writes (form : Form) (sign : Sign) {digits : List Char}
    {number : Nat} (writes : Numeral.Writes form.base digits number)
    (allowed : sign = .minus → form.allowsMinus = true) :
    (Literal.mk form sign digits).WellFormed ∧
      (Literal.mk form sign digits).number = sign.apply number := by
  have sixteen : form.base ≤ 16 := by
    cases form <;> decide
  obtain ⟨nonempty, allDigits, rfl⟩ := (Numeral.writes_iff sixteen digits number).mp writes
  exact ⟨⟨nonempty, allDigits, allowed⟩, rfl⟩

private theorem exists_literal_unsigned (form : Form) {plus digits : List Char} {number : Nat}
    (plain : form.negates = false) (isPlus : plus ∈ [[], ['+']])
    (writes : Numeral.Writes form.base digits number) (small : number ≤ 2 ^ 64 - 1) :
    ∃ literal : Literal, literal.WellFormed ∧ literal.text = form.lead ++ (plus ++ digits) ∧
      literal.valueInRange? = some (.ofInt .unsigned number) := by
  obtain ⟨sign, noMinus, rfl, same⟩ :
      ∃ sign : Sign, sign ≠ .minus ∧ sign.text = plus ∧ sign.apply number = number := by
    simp only [List.mem_cons, List.not_mem_nil, or_false] at isPlus
    rcases isPlus with rfl | rfl
    · exact ⟨.absent, by decide, rfl, rfl⟩
    · exact ⟨.plus, by decide, rfl, rfl⟩
  obtain ⟨wellFormed, value⟩ :=
    wellFormed_of_writes form sign writes fun minus => absurd minus noMinus
  refine ⟨⟨form, sign, digits⟩, wellFormed, rfl, ?_⟩
  rw [same] at value
  have below : (number : Int) < 0x1_0000_0000_0000_0000 := by omega
  rw [valueInRange?, value, plain, if_neg Bool.false_ne_true, if_neg noMinus, if_pos below]

private theorem exists_literal_negated (form : Form) {sign digits : List Char}
    {number : Nat} {factor : Int} (negates : form.negates = true)
    (isSign : (sign, factor) ∈ [([], 1), (['+'], 1), (['-'], -1)])
    (writes : Numeral.Writes form.base digits number)
    (above : -2 ^ 63 ≤ factor * number) (below : factor * number ≤ 2 ^ 63 - 1) :
    ∃ literal : Literal, literal.WellFormed ∧ literal.text = form.lead ++ (sign ++ digits) ∧
      literal.valueInRange? = some (.ofInt .signed (-(factor * number))) := by
  obtain ⟨written, rfl, same⟩ :
      ∃ written : Sign, written.text = sign ∧ written.apply number = factor * number := by
    simp only [List.mem_cons, List.not_mem_nil, or_false, Prod.mk.injEq] at isSign
    rcases isSign with ⟨rfl, rfl⟩ | ⟨rfl, rfl⟩ | ⟨rfl, rfl⟩
    · exact ⟨.absent, rfl, (Int.one_mul _).symm⟩
    · exact ⟨.plus, rfl, (Int.one_mul _).symm⟩
    · exact ⟨.minus, rfl, (Int.neg_one_mul _).symm⟩
  have allowed : form.allowsMinus = true := by
    cases form with
    | negatedBinary => rfl
    | negatedHexadecimal => rfl
    | _ => cases negates
  obtain ⟨wellFormed, value⟩ := wellFormed_of_writes form written writes fun _ => allowed
  refine ⟨⟨form, written, digits⟩, wellFormed, rfl, ?_⟩
  rw [same] at value
  have range : -0x8000_0000_0000_0000 ≤ factor * number ∧
      factor * number < 0x8000_0000_0000_0000 := by omega
  rw [valueInRange?, value, if_pos negates, if_pos range]

private theorem exists_literal_negative {digits : List Char} {number : Nat}
    (writes : Numeral.Writes 10 digits number) (small : number ≤ 2 ^ 63) :
    ∃ literal : Literal, literal.WellFormed ∧ literal.text = '-' :: digits ∧
      literal.valueInRange? = some (.ofInt .signed (-number)) := by
  obtain ⟨wellFormed, value⟩ := wellFormed_of_writes .decimal .minus writes fun _ => rfl
  refine ⟨⟨.decimal, .minus, digits⟩, wellFormed, rfl, ?_⟩
  have above : -0x8000_0000_0000_0000 ≤ -(number : Int) := by omega
  rw [valueInRange?, value]
  exact if_pos above

theorem exists_literal_of_denotes {chars : List Char} {value : Value}
    (denotes : Denotes chars value) :
    ∃ literal : Literal, literal.WellFormed ∧ literal.text = chars ∧
      literal.valueInRange? = some value := by
  cases denotes with
  | word isLead isPlus writes small =>
      simp only [List.mem_cons, List.not_mem_nil, or_false, Prod.mk.injEq] at isLead
      rcases isLead with ⟨rfl, rfl⟩ | ⟨rfl, rfl⟩
      · exact exists_literal_unsigned .binary rfl isPlus writes small
      · exact exists_literal_unsigned .hexadecimal rfl isPlus writes small
  | negated isLead isSign writes above below =>
      simp only [List.mem_cons, List.not_mem_nil, or_false, Prod.mk.injEq] at isLead
      rcases isLead with ⟨rfl, rfl⟩ | ⟨rfl, rfl⟩
      · exact exists_literal_negated .negatedBinary rfl isSign writes above below
      · exact exists_literal_negated .negatedHexadecimal rfl isSign writes above below
  | decimal isPlus writes small =>
      exact exists_literal_unsigned .decimal rfl isPlus writes small
  | negative writes small =>
      exact exists_literal_negative writes small

end Literal

namespace Value

theorem ofLiteral?_eq_some_iff (text : String) (value : Value) :
    ofLiteral? text = some value ↔ Denotes text.toList value := by
  unfold ofLiteral?
  rw [Option.bind_eq_some_iff]
  constructor
  · intro accepted
    obtain ⟨literal, read, found⟩ := accepted
    obtain ⟨wellFormed, written⟩ := (Literal.ofChars?_eq_some_iff _ literal).mp read
    rw [Literal.value?_eq_valueInRange? wellFormed] at found
    rw [← written]
    exact Literal.denotes_of_valueInRange? wellFormed found
  · intro denotes
    obtain ⟨literal, wellFormed, written, found⟩ := Literal.exists_literal_of_denotes denotes
    refine ⟨literal, (Literal.ofChars?_eq_some_iff _ literal).mpr ⟨wellFormed, written⟩, ?_⟩
    rw [Literal.value?_eq_valueInRange? wellFormed]
    exact found

theorem parse_eq_ok_iff (text : String) (value : Value) :
    parse text = .ok value ↔ Denotes text.toList value := by
  rw [← ofLiteral?_eq_some_iff]
  unfold parse
  cases ofLiteral? text with
  | none => simp
  | some read => simp

-- The range is that of the number before the lead negates it.
example : parse "-0x-8000000000000000" = .ok (.ofInt .signed (-2 ^ 63)) := by
  decide

theorem parse_eq_error_iff (text : String) (fault : Fault) :
    parse text = .error fault ↔
      fault = .invalidInput text ∧ ¬ ∃ value, Denotes text.toList value := by
  simp only [← ofLiteral?_eq_some_iff]
  unfold parse
  cases ofLiteral? text with
  | none => simp [eq_comm]
  | some read => simp

example : parse "-0x8000000000000000" = .error (.invalidInput "-0x8000000000000000") := by
  cbv

end Value

namespace Operator

theorem symbol_injective : Function.Injective symbol := by
  intro left right same
  have leftNamed := (ofSymbol?_eq_some_iff right.symbol left).mpr same
  have rightNamed := (ofSymbol?_eq_some_iff right.symbol right).mpr rfl
  exact Option.some.inj (leftNamed.symm.trans rightNamed)

theorem exists_symbol_iff (c : Char) :
    (∃ operator : Operator, operator.symbol = c) ↔
      c ∈ ['+', '-', '*', '/', '%', '^', '&', '|', 'x', '!', '<', '>', 'p', 'f', 'o', 'n',
        'd', 'c', 'r', 's', 'l', 'L', 'F', 'u', 'i', 'q'] := by
  change _ ↔ c ∈ all.map symbol
  rw [List.mem_map]
  constructor
  · intro named
    obtain ⟨operator, same⟩ := named
    exact ⟨operator, mem_all operator, same⟩
  · intro named
    obtain ⟨operator, _, same⟩ := named
    exact ⟨operator, same⟩

theorem not_denotes_symbol (operator : Operator) (value : Value) :
    ¬ Denotes [operator.symbol] value := by
  intro denotes
  obtain ⟨literal, wellFormed, written, _⟩ := Literal.exists_literal_of_denotes denotes
  have read := (Literal.ofChars?_eq_some_iff _ literal).mpr ⟨wellFormed, written⟩
  have none : ∀ operator ∈ all, Literal.ofChars? [operator.symbol] = none := by
    decide
  rw [none operator (mem_all operator)] at read
  cases read

end Operator

namespace Operation

theorem operatorOf?_eq_some_iff (text : String) (operator : Operator) :
    operatorOf? text = some operator ↔ text.toList = [operator.symbol] := by
  unfold operatorOf?
  split
  · rename_i c single
    rw [Operator.ofSymbol?_eq_some_iff, single]
    constructor
    · intro same
      rw [same]
    · intro same
      exact (List.cons.inj same).1.symm
  · rename_i several
    constructor
    · intro found
      cases found
    · intro single
      exact absurd single (several operator.symbol)

theorem parse_eq_apply_iff (text : String) (operator : Operator) :
    parse text = .ok (.apply operator) ↔ text.toList = [operator.symbol] := by
  rw [← operatorOf?_eq_some_iff]
  unfold parse
  cases operatorOf? text with
  | some named => simp
  | none =>
      cases Value.parse text with
      | error fault => simp [Except.map]
      | ok value => simp [Except.map]

theorem parse_eq_apply_iff_eq (text : String) (operator : Operator) :
    parse text = .ok (.apply operator) ↔ text = String.singleton operator.symbol := by
  rw [parse_eq_apply_iff, ← String.toList_inj, String.toList_singleton]

theorem parse_of_no_symbol {text : String}
    (noSymbol : ¬ ∃ operator : Operator, text.toList = [operator.symbol]) :
    parse text = (Value.parse text).map .push := by
  unfold parse
  cases named : operatorOf? text with
  | some operator =>
      exact absurd ⟨operator, (operatorOf?_eq_some_iff text operator).mp named⟩ noSymbol
  | none => rfl

/-- A text is read as a literal exactly when it denotes a value, as that value,
and every other text is refused by name; no value is lost to the count of
digits. A token is an operator exactly when it is one of the twenty-six symbols,
none of which is a literal, and asks for its value to be pushed otherwise. -/
theorem tokens_read_exactly (text : String) :
    (∀ value, Value.parse text = .ok value ↔ Denotes text.toList value) ∧
      (∀ fault, Value.parse text = .error fault ↔
        fault = .invalidInput text ∧ ¬ ∃ value, Denotes text.toList value) ∧
      (∀ literal, Literal.ofChars? text.toList = some literal →
        literal.value? = literal.valueInRange?) ∧
      (∀ operator, parse text = .ok (.apply operator) ↔ text.toList = [operator.symbol]) ∧
      (∀ operator value, ¬ Denotes [Operator.symbol operator] value) ∧
      ((¬ ∃ operator : Operator, text.toList = [operator.symbol]) →
        parse text = (Value.parse text).map .push) ∧
      Function.Injective Operator.symbol ∧
      ∀ c, (∃ operator : Operator, operator.symbol = c) ↔
        c ∈ ['+', '-', '*', '/', '%', '^', '&', '|', 'x', '!', '<', '>', 'p', 'f', 'o', 'n',
          'd', 'c', 'r', 's', 'l', 'L', 'F', 'u', 'i', 'q'] := by
  refine ⟨Value.parse_eq_ok_iff text, Value.parse_eq_error_iff text, ?_,
    parse_eq_apply_iff text, Operator.not_denotes_symbol, parse_of_no_symbol,
    Operator.symbol_injective, Operator.exists_symbol_iff⟩
  intro literal read
  exact Literal.value?_eq_valueInRange? ((Literal.ofChars?_eq_some_iff _ literal).mp read).1

end Operation

end WordCalc
