import WordCalc.Value

/-!
Literals: the written forms of values in the input.

A literal is a lead, which decides the base and whether the number is negated,
then an optional sign, then digits. `Literal.text` writes it out and
`Literal.ofChars?` reads it; `ofChars?_eq_some_iff` says that the two belong
together, so a text is a literal in at most one way. Which number fits into
which kind of value is decided in `Literal.value?`.
-/

namespace WordCalc

/-- The five written forms, told apart by their leads. -/
inductive Form
  | binary
  | negatedBinary
  | hexadecimal
  | negatedHexadecimal
  | decimal
  deriving DecidableEq

namespace Form

def lead : Form → List Char
  | .binary => ['0', 'b']
  | .negatedBinary => ['-', '0', 'b']
  | .hexadecimal => ['0', 'x']
  | .negatedHexadecimal => ['-', '0', 'x']
  | .decimal => []

def base : Form → Nat
  | .binary | .negatedBinary => 2
  | .hexadecimal | .negatedHexadecimal => 16
  | .decimal => 10

/-- The number of digits that a 64-bit magnitude takes at most. -/
def width : Form → Nat
  | .binary | .negatedBinary => 64
  | .hexadecimal | .negatedHexadecimal => 16
  | .decimal => 20

/-- Whether the lead itself negates the number that follows. -/
def negates : Form → Bool
  | .negatedBinary | .negatedHexadecimal => true
  | .binary | .hexadecimal | .decimal => false

def allowsMinus : Form → Bool
  | .binary | .hexadecimal => false
  | .negatedBinary | .negatedHexadecimal | .decimal => true

/-- Takes the lead off a text. What has no other lead is decimal. -/
def split : List Char → Form × List Char
  | '0' :: 'b' :: rest => (.binary, rest)
  | '0' :: 'x' :: rest => (.hexadecimal, rest)
  | '-' :: '0' :: 'b' :: rest => (.negatedBinary, rest)
  | '-' :: '0' :: 'x' :: rest => (.negatedHexadecimal, rest)
  | rest => (.decimal, rest)

theorem lead_append_split (chars : List Char) :
    (split chars).1.lead ++ (split chars).2 = chars := by
  unfold split
  split <;> rfl

end Form

inductive Sign
  | absent
  | plus
  | minus
  deriving DecidableEq

namespace Sign

def text : Sign → List Char
  | .absent => []
  | .plus => ['+']
  | .minus => ['-']

def apply (number : Nat) : Sign → Int
  | .absent | .plus => number
  | .minus => -number

def split : List Char → Sign × List Char
  | '+' :: rest => (.plus, rest)
  | '-' :: rest => (.minus, rest)
  | rest => (.absent, rest)

theorem text_append_split (chars : List Char) :
    (split chars).1.text ++ (split chars).2 = chars := by
  unfold split
  split <;> rfl

end Sign

/-! ### Literals as text -/

structure Literal where
  form : Form
  sign : Sign
  digits : List Char
  deriving DecidableEq

namespace Literal

def text (literal : Literal) : List Char :=
  literal.form.lead ++ (literal.sign.text ++ literal.digits)

/-- A literal has digits, all of them of its base, and a minus sign only where
its form has room for one. -/
def WellFormed (literal : Literal) : Prop :=
  literal.digits ≠ [] ∧
    (∀ digit ∈ literal.digits, Numeral.isDigit literal.form.base digit = true) ∧
    (literal.sign = .minus → literal.form.allowsMinus = true)

instance (literal : Literal) : Decidable literal.WellFormed :=
  -- The digits are gone through one by one; characters can also be gone through all.
  have : Decidable (∀ digit ∈ literal.digits,
      Numeral.isDigit literal.form.base digit = true) := List.decidableBAll _ _
  inferInstanceAs (Decidable (_ ∧ _ ∧ _))

def ofChars? (chars : List Char) : Option Literal :=
  let (form, magnitude) := Form.split chars
  let (sign, digits) := Sign.split magnitude
  let literal : Literal := { form, sign, digits }
  if literal.WellFormed then some literal else none

/-- The lead of a well formed literal is taken off as it was put on: no digit
is `b` or `x` in base ten, so decimal digits never look like another lead. -/
private theorem formSplit_text {literal : Literal} (wellFormed : literal.WellFormed) :
    Form.split literal.text = (literal.form, literal.sign.text ++ literal.digits) := by
  obtain ⟨form, sign, digits⟩ := literal
  obtain ⟨nonempty, digitsOk, _⟩ := wellFormed
  cases form with
  | binary => rfl
  | negatedBinary => rfl
  | hexadecimal => rfl
  | negatedHexadecimal => rfl
  | decimal =>
      change Form.split (sign.text ++ digits) = (Form.decimal, sign.text ++ digits)
      have noLetter : ∀ digit ∈ digits, digit ≠ 'b' ∧ digit ≠ 'x' := by
        intro digit member
        have isDigit : Numeral.isDigit 10 digit = true := digitsOk digit member
        constructor
        · rintro rfl
          exact absurd isDigit (by decide)
        · rintro rfl
          exact absurd isDigit (by decide)
      have noMinus : '-' ∉ digits := by
        intro member
        have isDigit : Numeral.isDigit 10 '-' = true := digitsOk _ member
        exact absurd isDigit (by decide)
      unfold Form.split
      split
      · rename_i rest same
        cases sign with
        | absent =>
            obtain rfl : digits = '0' :: 'b' :: rest := same
            exact absurd rfl (noLetter 'b' (by simp)).1
        | plus => exact absurd same (by simp [Sign.text])
        | minus => exact absurd same (by simp [Sign.text])
      · rename_i rest same
        cases sign with
        | absent =>
            obtain rfl : digits = '0' :: 'x' :: rest := same
            exact absurd rfl (noLetter 'x' (by simp)).2
        | plus => exact absurd same (by simp [Sign.text])
        | minus => exact absurd same (by simp [Sign.text])
      · rename_i rest same
        cases sign with
        | absent =>
            obtain rfl : digits = '-' :: '0' :: 'b' :: rest := same
            exact absurd (by simp) noMinus
        | plus => exact absurd same (by simp [Sign.text])
        | minus =>
            obtain rfl : digits = '0' :: 'b' :: rest := List.cons.inj same |>.2
            exact absurd rfl (noLetter 'b' (by simp)).1
      · rename_i rest same
        cases sign with
        | absent =>
            obtain rfl : digits = '-' :: '0' :: 'x' :: rest := same
            exact absurd (by simp) noMinus
        | plus => exact absurd same (by simp [Sign.text])
        | minus =>
            obtain rfl : digits = '0' :: 'x' :: rest := List.cons.inj same |>.2
            exact absurd rfl (noLetter 'x' (by simp)).2
      · rfl

/-- No digit is a sign, so the sign is taken off as it was put on. -/
theorem signSplit_text (sign : Sign) {base : Nat} {digits : List Char}
    (digitsOk : ∀ digit ∈ digits, Numeral.isDigit base digit = true) :
    Sign.split (sign.text ++ digits) = (sign, digits) := by
  cases sign with
  | plus => rfl
  | minus => rfl
  | absent =>
      change Sign.split digits = (Sign.absent, digits)
      unfold Sign.split
      split
      · exact absurd (digitsOk '+' (by simp)) (by simp [Numeral.isDigit, Numeral.digitValue?])
      · exact absurd (digitsOk '-' (by simp)) (by simp [Numeral.isDigit, Numeral.digitValue?])
      · rfl

/-- Reading accepts exactly the texts of well formed literals, and gives back
the literal that the text was written from. -/
theorem ofChars?_eq_some_iff (chars : List Char) (literal : Literal) :
    ofChars? chars = some literal ↔ literal.WellFormed ∧ literal.text = chars := by
  constructor
  · intro accepted
    simp only [ofChars?, Option.ite_none_right_eq_some, Option.some.injEq] at accepted
    obtain ⟨wellFormed, rfl⟩ := accepted
    refine ⟨wellFormed, ?_⟩
    simp only [text]
    rw [Sign.text_append_split, Form.lead_append_split]
  · rintro ⟨wellFormed, rfl⟩
    simp only [ofChars?, formSplit_text wellFormed, signSplit_text literal.sign wellFormed.2.1]
    rw [if_pos wellFormed]

/-- The number that the sign and the digits write, before any negation by the
lead. -/
def number (literal : Literal) : Int :=
  literal.sign.apply (Numeral.value literal.form.base literal.digits)

/-- The value a literal stands for, if there is one that its number fits. A
negating lead takes the numbers of a signed word and gives the negated signed
value; otherwise a minus sign gives a signed value, and no minus sign an
unsigned one. Numerals with more digits than a magnitude can need are refused
before they are converted. -/
def value? (literal : Literal) : Option Value :=
  if literal.form.width < (Numeral.significant literal.digits).length then none
  else if literal.form.negates then
    if -0x8000_0000_0000_0000 ≤ literal.number ∧ literal.number < 0x8000_0000_0000_0000 then
      some (.ofInt .signed (-literal.number))
    else none
  else if literal.sign = .minus then
    if -0x8000_0000_0000_0000 ≤ literal.number then some (.ofInt .signed literal.number)
    else none
  else
    if literal.number < 0x1_0000_0000_0000_0000 then some (.ofInt .unsigned literal.number)
    else none

def grammar : List String :=
  ["",
   "               (?<bin>",
   "                   # 0b101, 0b+101",
   "                   0b",
   "                   (?<magnitude> \\+? [01]+ )",
   "               )|(?<negbin>",
   "                   # -0b101; the magnitude is signed, so -0b-1 is 1",
   "                   -0b",
   "                   (?<magnitude> [+-]? [01]+ )",
   "               )|(?<hex>",
   "                   # 0xff, 0xFF",
   "                   0x",
   "                   (?<magnitude> \\+? [0-9a-fA-F]+ )",
   "               )|(?<neghex>",
   "                   -0x",
   "                   (?<magnitude> [+-]? [0-9a-fA-F]+ )",
   "               )|(?<dec>",
   "                   # Unsigned if it fits, else signed: 5, +5, -5",
   "                   (?<magnitude> [+-]? [0-9]+ )",
   "               )",
   "               "]

end Literal

def Value.ofLiteral? (text : String) : Option Value :=
  (Literal.ofChars? text.toList).bind Literal.value?

end WordCalc
