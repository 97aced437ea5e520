import WordCalc.Proofs.Alternatives
import WordCalc.Proofs.Denotation

/-!
Reading literals by the groups of a match.

Such a reading takes the name of the alternative from the groups that took part,
and looks up by that name what to do with the magnitude. There are several points
at which it could not go on: there could be no name or two, no magnitude, or one
that is no numeral. It comes to none of them, because the grammar is unambiguous,
and it reads what `Value.parse` reads.
-/

namespace WordCalc

namespace Numeral

theorem significant_ne_nil (digits : List Char) : significant digits ≠ [] := by
  unfold significant
  split
  · exact List.cons_ne_nil _ _
  · exact List.cons_ne_nil _ _

theorem isDigit_of_mem_significant {base : Nat} (positive : 0 < base) {digits : List Char}
    (allDigits : ∀ c ∈ digits, isDigit base c = true) :
    ∀ c ∈ significant digits, isDigit base c = true := by
  intro c member
  unfold significant at member
  split at member
  · rw [List.mem_singleton] at member
    rw [member, isDigit_iff_toNat]
    simp [positive]
  · rename_i first rest kept
    rw [← kept] at member
    exact allDigits c ((List.dropWhile_sublist _).subset member)

end Numeral

namespace Literal

/-- The points at which a reading by groups could not go on. -/
inductive Breakdown
  | notOneName
  | noMagnitude
  | emptyMagnitude
  | unknownName
  | unknownBase
  | notANumeral

def demand {α : Type} (breakdown : Breakdown) : Option α → Except Breakdown α
  | some found => .ok found
  | none => .error breakdown

def bases : List (String × Nat) :=
  [("bin", 2), ("negbin", 2), ("hex", 16), ("neghex", 16), ("dec", 10)]

def widths : List (Nat × Nat) := [(2, 64), (10, 20), (16, 16)]

def negatedNames : List String := ["negbin", "neghex"]

def alternatives (groups : Groups) : List String :=
  ((Literal.pattern.partaking groups).map Prod.fst).filter (· ≠ "magnitude")

def onlyName? : List String → Option String
  | [name] => some name
  | _ => none

/-- The integer that a text writes with a sign, if there is one, and digits of the
base. Without digits, or with anything else, it writes none, and neither does it
with more than 4300 digits, unless the base is a power of two. -/
def integer? (base : Nat) (text : List Char) : Option Int :=
  let (sign, digits) := Sign.split text
  if digits ≠ [] ∧ digits.all (Numeral.isDigit base) ∧
      (digits.length ≤ 4300 ∨ base ∈ [2, 4, 8, 16, 32]) then
    some (sign.apply (Numeral.value base digits))
  else none

def inRange? (name : String) (magnitude : List Char) (number : Int) : Option Value :=
  if name ∈ negatedNames then
    if -2 ^ 63 ≤ number ∧ number < 2 ^ 63 then some (.ofInt .signed (-number)) else none
  else if name = "dec" then
    if magnitude.head? ≠ some '-' ∧ number ≤ 2 ^ 64 - 1 then some (.ofInt .unsigned number)
    else if -2 ^ 63 ≤ number ∧ number < 2 ^ 63 then some (.ofInt .signed number)
    else none
  else if number ≤ 2 ^ 64 - 1 then some (.ofInt .unsigned number)
  else none

def valueOf (groups : Groups) : Except Breakdown (Option Value) := do
  let name ← demand .notOneName (onlyName? (alternatives groups))
  let magnitude ← demand .noMagnitude (groups "magnitude")
  let base ← demand .unknownName (bases.lookup name)
  if magnitude = [] then throw .emptyMagnitude
  let sign := (Sign.split magnitude).1.text
  let digits := Numeral.significant (magnitude.drop sign.length)
  let width ← demand .unknownBase (widths.lookup base)
  if width < digits.length then return none
  let number ← demand .notANumeral (integer? base (sign ++ digits))
  return inRange? name (sign ++ digits) number

variable {literal : Literal}

theorem groups_magnitude (literal : Literal) :
    literal.cut.captures.groups "magnitude" = some (literal.sign.text ++ literal.digits) := by
  obtain ⟨form, sign, digits⟩ := literal
  cases form <;> rfl

theorem alternatives_groups (literal : Literal) :
    alternatives literal.cut.captures.groups = [literal.form.groupName] := by
  obtain ⟨form, sign, digits⟩ := literal
  cases form <;> rfl

theorem integer?_of_digits {base : Nat} (sign : Sign) {digits : List Char}
    (nonempty : digits ≠ []) (allDigits : ∀ c ∈ digits, Numeral.isDigit base c = true)
    (short : digits.length ≤ 4300) :
    integer? base (sign.text ++ digits) = some (sign.apply (Numeral.value base digits)) := by
  unfold integer?
  rw [signSplit_text sign allDigits]
  exact if_pos ⟨nonempty, List.all_eq_true.mpr allDigits, Or.inl short⟩

theorem WellFormed.isDigit_of_mem_significant (wellFormed : literal.WellFormed) :
    ∀ c ∈ Numeral.significant literal.digits,
      Numeral.isDigit literal.form.base c = true := by
  have positive : 0 < literal.form.base := by
    cases literal.form <;> decide
  exact Numeral.isDigit_of_mem_significant positive wellFormed.2.1

theorem integer?_significant (wellFormed : literal.WellFormed)
    (short : (Numeral.significant literal.digits).length ≤ literal.form.width) :
    integer? literal.form.base (literal.sign.text ++ Numeral.significant literal.digits) =
      some literal.number := by
  have narrow : literal.form.width ≤ 4300 := by
    cases literal.form <;> decide
  rw [integer?_of_digits literal.sign (Numeral.significant_ne_nil _)
    wellFormed.isDigit_of_mem_significant (short.trans narrow), Numeral.value_significant]
  rfl

private theorem head?_signed_eq_minus_iff {base : Nat} (sign : Sign) {digits : List Char}
    (allDigits : ∀ c ∈ digits, Numeral.isDigit base c = true) :
    (sign.text ++ digits).head? = some '-' ↔ sign = .minus := by
  cases sign with
  | plus => simp [Sign.text]
  | minus => simp [Sign.text]
  | absent =>
      have noMinus : digits.head? ≠ some '-' := by
        intro minus
        have isDigit := allDigits '-' (List.mem_of_head? minus)
        simp [Numeral.isDigit_iff_toNat] at isDigit
      simp [Sign.text, noMinus]

/-- The ranges by name are those by form: a minus sign stands for itself in the
decimal form only, and takes the number out of the range of unsigned words. -/
theorem inRange?_eq_valueInRange? (wellFormed : literal.WellFormed) :
    inRange? literal.form.groupName (literal.sign.text ++ Numeral.significant literal.digits)
      literal.number = literal.valueInRange? := by
  obtain ⟨isNegated, isDecimal⟩ :
      (literal.form.groupName ∈ negatedNames ↔ literal.form.negates = true) ∧
        (literal.form.groupName = "dec" ↔
          literal.form.negates = false ∧ literal.form.allowsMinus = true) := by
    cases literal.form <;> decide
  have startsMinus :=
    head?_signed_eq_minus_iff literal.sign wellFormed.isDigit_of_mem_significant
  unfold inRange? valueInRange?
  by_cases negates : literal.form.negates = true
  · rw [if_pos (isNegated.mpr negates), if_pos negates]
    exact if_congr (by omega) rfl rfl
  · have plain : literal.form.negates = false := by
      simpa using negates
    rw [if_neg (mt isNegated.mp negates), if_neg negates]
    rcases number_cases literal with ⟨minus, number⟩ | ⟨noMinus, number⟩
    · have named : literal.form.groupName = "dec" := isDecimal.mpr ⟨plain, wellFormed.2.2 minus⟩
      have notUnsigned : ¬ ((literal.sign.text ++ Numeral.significant literal.digits).head? ≠
          some '-' ∧ literal.number ≤ 2 ^ 64 - 1) :=
        fun both => both.1 (startsMinus.mpr minus)
      rw [if_pos named, if_neg notUnsigned, if_pos minus]
      exact if_congr (by omega) rfl rfl
    · rw [if_neg noMinus]
      have unsigned : (literal.sign.text ++ Numeral.significant literal.digits).head? ≠
          some '-' ∧ literal.number ≤ 2 ^ 64 - 1 ↔ literal.number < 0x1_0000_0000_0000_0000 :=
        (and_iff_right (mt startsMinus.mp noMinus)).trans (by omega)
      split
      · simp only [unsigned]
        split
        · rfl
        · -- Too large for an unsigned word, and so for a signed one.
          rw [if_neg (by omega)]
      · exact if_congr (by omega) rfl rfl

theorem valueOf_groups (wellFormed : literal.WellFormed) :
    valueOf literal.cut.captures.groups = .ok literal.value? := by
  have base : bases.lookup literal.form.groupName = some literal.form.base := by
    cases literal.form <;> rfl
  have width : widths.lookup literal.form.base = some literal.form.width := by
    cases literal.form <;> rfl
  have nonempty : literal.sign.text ++ literal.digits ≠ [] :=
    List.append_ne_nil_of_right_ne_nil _ wellFormed.1
  have ranges : literal.value? =
      if literal.form.width < (Numeral.significant literal.digits).length then none
      else literal.valueInRange? := rfl
  unfold valueOf
  simp only [alternatives_groups, groups_magnitude, onlyName?, demand, base, width, nonempty,
    signSplit_text literal.sign wellFormed.2.1, List.drop_left, if_false, bind, Except.bind, pure,
    Except.pure]
  rw [ranges]
  split
  · rfl
  · rename_i short
    rw [integer?_significant wellFormed (Nat.le_of_not_lt short)]
    simp only [inRange?_eq_valueInRange? wellFormed]

end Literal

def Value.parseBy (search : List Char → Option Groups) (text : String) :
    Except Literal.Breakdown (Except Fault Value) :=
  match search text.toList with
  | none => .ok (.error (.invalidInput text))
  | some groups =>
      (Literal.valueOf groups).map fun found =>
        match found with
        | some value => .ok value
        | none => .error (.invalidInput text)

theorem Value.parseBy_search (text : String) :
    parseBy Literal.search text = .ok (parse text) := by
  unfold parseBy parse ofLiteral? Literal.search
  cases read : Literal.ofChars? text.toList with
  | none => rfl
  | some literal =>
      have wellFormed := ((Literal.ofChars?_eq_some_iff _ literal).mp read).1
      rw [Option.bind_some]
      change (Literal.valueOf literal.cut.captures.groups).map _ = _
      rw [Literal.valueOf_groups wellFormed]
      cases literal.value? with
      | none => rfl
      | some value => rfl

/-! ### One way to read -/

/-- The groups tell how the text was cut: one name is left beside that of the
magnitude, and what follows the sign of the magnitude can be converted. -/
structure Cut.ToldBy (cut : Cut) (groups : Groups) : Prop where
  name : Literal.alternatives groups = [cut.form.groupName]
  whole : groups cut.form.groupName = some cut.text
  magnitude : groups "magnitude" = some cut.magnitude
  sign : (Sign.split cut.magnitude).1.text = cut.sign
  nonempty : cut.digits ≠ []
  converts : (Numeral.significant cut.digits).length ≤ cut.form.width →
    ∃ number,
      Literal.integer? cut.form.base (cut.sign ++ Numeral.significant cut.digits) = some number
  completes : ∃ value?, Literal.valueOf groups = .ok value?

/-- At most one alternative matches, capturing what it captures, and cuts the text
in one way; the search finds it, and tells how. -/
structure ReadsInOneWay (search : List Char → Option Groups) (text : List Char) : Prop where
  alternative : { found : Form × Captures | found.1.pattern.Matches text found.2 }.Subsingleton
  cut : { cut : Cut | cut.Fits ∧ cut.text = text }.Subsingleton
  refused : search text = none ↔ ∀ (form : Form) captures, ¬ form.pattern.Matches text captures
  told : ∀ groups, search text = some groups →
    ∃ cut : Cut, cut.Fits ∧ cut.text = text ∧ cut.ToldBy groups

theorem Literal.toldBy_groups {literal : Literal} (wellFormed : literal.WellFormed) :
    literal.cut.ToldBy literal.cut.captures.groups :=
  { name := alternatives_groups literal
    whole := by
      obtain ⟨form, sign, digits⟩ := literal
      cases form <;> rfl
    magnitude := groups_magnitude literal
    sign := congrArg (fun split => split.1.text) (signSplit_text literal.sign wellFormed.2.1)
    nonempty := wellFormed.1
    converts := fun short => ⟨literal.number, integer?_significant wellFormed short⟩
    completes := ⟨literal.value?, valueOf_groups wellFormed⟩ }

namespace Literal

theorem readsInOneWay_search (text : List Char) : ReadsInOneWay search text := by
  refine ⟨Form.subsingleton_matches text, Cut.subsingleton text, search_eq_none_iff text, ?_⟩
  intro groups found
  obtain ⟨literal, read, rfl⟩ := Option.map_eq_some_iff.mp found
  obtain ⟨fits, written⟩ := (literal.cut.fits_text_iff text).mpr ⟨literal, read, rfl⟩
  have wellFormed := ((ofChars?_eq_some_iff text literal).mp read).1
  exact ⟨literal.cut, fits, written, toldBy_groups wellFormed⟩

/-- The printed grammar is unambiguous. Whatever searches for matches of it, at most
one alternative matches a text and cuts it in one way; the names that took part
tell which, with a magnitude that has digits and can be converted; and a reading
that goes by them never breaks down, and is the reading of `Value.parse`. -/
theorem grammar_unambiguous {found : List Char → Option Groups}
    (searches : Literal.pattern.Searches found) (text : String) :
    Literal.pattern.spell = Pattern.bare Literal.grammar ∧
      ReadsInOneWay found text.toList ∧
      Value.parseBy found text = .ok (Value.parse text) := by
  rw [eq_search searches]
  exact ⟨spell_pattern, readsInOneWay_search text.toList, Value.parseBy_search text⟩

/-- Behind the lead of a hexadecimal numeral, `0b1` is digits and no other lead. -/
theorem grammar_unambiguous_of_letter_digits :
    Literal.pattern.Searches search ∧
      (search "-0x+0b1".toList ≠ none ∧
        ReadsInOneWay search "-0x+0b1".toList ∧
        Value.parseBy search "-0x+0b1" = .ok (Value.parse "-0x+0b1")) ∧
      Value.parse "-0x+0b1" = .ok (.ofInt .signed (-0xb1)) := by
  obtain ⟨_, oneWay, parsed⟩ := grammar_unambiguous searches_search "-0x+0b1"
  exact ⟨searches_search, ⟨by decide, oneWay, parsed⟩, by decide⟩

end Literal

end WordCalc
