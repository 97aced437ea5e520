import WordCalc.Numeral
import WordCalc.Text

/-!
Values of the calculator: 64-bit words that know how they are to be read.

A value keeps a bit pattern and a signedness, and the number it stands for is
computed from the two. Reading the same pattern the other way is therefore a
change of one field and loses nothing.

Every operation on two values has one shape: the signedness of the result is
the join of the signednesses of the operands, and its bit pattern depends on
the two patterns and, for division, remainder and right shifts only, on that
joined signedness. Results wrap modulo `2 ^ 64`. Quotients and remainders by
zero have no value; nothing else fails.

There are four printed forms, each of which ends with the three letters of the
signedness. Two show the payload in decimal, as it is or at the right of a
column; two show all bits of the pattern. The output radix decides among the
last three.
-/

namespace WordCalc

inductive Signedness
  | unsigned
  | signed
  deriving DecidableEq

namespace Signedness

def name : Signedness → String
  | .unsigned => "Unsigned"
  | .signed => "Signed"

def suffix : Signedness → String
  | .unsigned => "u64"
  | .signed => "i64"

/-- A result is signed as soon as one of its operands is. -/
def join : Signedness → Signedness → Signedness
  | .unsigned, .unsigned => .unsigned
  | _, _ => .signed

end Signedness

structure Value where
  signedness : Signedness
  bits : BitVec 64
  deriving DecidableEq

namespace Value

/-- The value of the given signedness whose bit pattern is `number` modulo
`2 ^ 64`, in two's complement. -/
def ofInt (signedness : Signedness) (number : Int) : Value :=
  { signedness, bits := BitVec.ofInt 64 number }

/-- The number a value stands for: at least `0` and below `2 ^ 64` when
unsigned, at least `-2 ^ 63` and below `2 ^ 63` when signed. -/
def payload (value : Value) : Int :=
  match value.signedness with
  | .unsigned => value.bits.toNat
  | .signed => value.bits.toInt

def reinterpret (signedness : Signedness) (value : Value) : Value :=
  { value with signedness }

/-- The low 32 bits of the pattern, which are all that exponents and radixes
look at. -/
def low32 (value : Value) : Nat :=
  (value.bits.setWidth 32).toNat

def isZero (value : Value) : Bool :=
  value.bits == 0

theorem ofInt_payload (value : Value) :
    ofInt value.signedness value.payload = value := by
  obtain ⟨signedness, bits⟩ := value
  cases signedness with
  | unsigned => simp [ofInt, payload]
  | signed => simp [ofInt, payload]

theorem eq_iff_signedness_payload (value other : Value) :
    value = other ↔ value.signedness = other.signedness ∧ value.payload = other.payload := by
  constructor
  · intro same
    rw [same]
    exact ⟨rfl, rfl⟩
  · intro same
    rw [← ofInt_payload value, ← ofInt_payload other, same.1, same.2]

theorem isZero_iff_payload_eq_zero (value : Value) :
    value.isZero = true ↔ value.payload = 0 := by
  obtain ⟨signedness, bits⟩ := value
  cases signedness with
  | unsigned =>
      simp only [isZero, payload, beq_iff_eq, ← BitVec.toNat_inj]
      simp
  | signed =>
      simp only [isZero, payload, beq_iff_eq, ← BitVec.toInt_inj]
      simp

@[simp] theorem signedness_reinterpret (signedness : Signedness) (value : Value) :
    (value.reinterpret signedness).signedness = signedness := rfl

@[simp] theorem bits_reinterpret (signedness : Signedness) (value : Value) :
    (value.reinterpret signedness).bits = value.bits := rfl

end Value

/-! ### Words -/

/-- The `exponent`-th power of a word by repeated squaring, for an exponent of
at most `width` bits. -/
def powBits (base : BitVec 64) : (width exponent : Nat) → BitVec 64
  | 0, _ => 1
  | width + 1, exponent =>
      let squares := powBits (base * base) width (exponent / 2)
      if exponent % 2 = 1 then base * squares else squares

/-- The number of places a shift by `count` moves a 64-bit word: from 64 on
nothing of the word is left, so larger counts are cut to 64. -/
def shiftPlaces (count : BitVec 64) : Nat :=
  min count.toNat 64

namespace Value

/-- The value of the joined signedness whose pattern `combine` computes from
the patterns of the two operands. -/
def combine (operation : Signedness → BitVec 64 → BitVec 64 → BitVec 64)
    (left right : Value) : Value :=
  let signedness := left.signedness.join right.signedness
  { signedness, bits := operation signedness left.bits right.bits }

instance : Add Value := ⟨combine fun _ => (· + ·)⟩
instance : Sub Value := ⟨combine fun _ => (· - ·)⟩
instance : Mul Value := ⟨combine fun _ => (· * ·)⟩
instance : AndOp Value := ⟨combine fun _ => (· &&& ·)⟩
instance : OrOp Value := ⟨combine fun _ => (· ||| ·)⟩
instance : XorOp Value := ⟨combine fun _ => (· ^^^ ·)⟩

instance : Complement Value := ⟨fun value => { value with bits := ~~~value.bits }⟩

instance : ShiftLeft Value :=
  ⟨combine fun _ word count => word <<< shiftPlaces count⟩

instance : ShiftRight Value :=
  ⟨combine fun signedness word count =>
    match signedness with
    | .unsigned => word >>> shiftPlaces count
    | .signed => word.sshiftRight (shiftPlaces count)⟩

/-- Raises to the power given by the low 32 bits of the exponent, so a negative
exponent counts as a large one. -/
def power (base exponent : Value) : Value :=
  combine (fun _ word _ => powBits word 32 exponent.low32) base exponent

def divide? (dividend divisor : Value) : Option Value :=
  if divisor.isZero then none
  else some (combine (fun signedness word divisor =>
    match signedness with
    | .unsigned => word / divisor
    | .signed => word.sdiv divisor) dividend divisor)

/-- The remainder of `divide?`, which has the sign of the dividend. -/
def remainder? (dividend divisor : Value) : Option Value :=
  if divisor.isZero then none
  else some (combine (fun signedness word divisor =>
    match signedness with
    | .unsigned => word % divisor
    | .signed => word.srem divisor) dividend divisor)

end Value

inductive Layout
  | plain
  | column
  | binary
  | hexadecimal
  deriving DecidableEq

namespace Layout

def ofCode? (code : String) : Option Layout :=
  if code = "" then some .plain
  else if code = "d" then some .column
  else if code = "b" then some .binary
  else if code = "x" then some .hexadecimal
  else none

def unknownCode (code : String) (signedness : Signedness) : String :=
  "Unknown format code " ++ Text.quoted code ++ " for " ++ signedness.name

end Layout

namespace Value

def digits (layout : Layout) (value : Value) : List Char :=
  match layout with
  | .plain => Numeral.decimal value.payload
  | .column => (Numeral.decimal value.payload).leftpad 20 ' '
  | .binary => '0' :: 'b' :: (Nat.toDigits 2 value.bits.toNat).leftpad 64 '0'
  | .hexadecimal => '0' :: 'x' :: (Nat.toDigits 16 value.bits.toNat).leftpad 16 '0'

def text (layout : Layout) (value : Value) : String :=
  String.ofList (value.digits layout) ++ value.signedness.suffix

instance : ToString Value := ⟨text .plain⟩

def description (value : Value) : String :=
  value.signedness.name ++ "(" ++ String.ofList (Numeral.decimal value.payload) ++ ")"

end Value

inductive Radix
  | binary
  | decimal
  | hexadecimal
  deriving DecidableEq

namespace Radix

def name : Radix → String
  | .binary => "BIN"
  | .decimal => "DEC"
  | .hexadecimal => "HEX"

def base : Radix → Nat
  | .binary => 2
  | .decimal => 10
  | .hexadecimal => 16

def all : List Radix := [.binary, .decimal, .hexadecimal]

def ofValue? (value : Value) : Option Radix :=
  all.find? fun radix => radix.base == value.low32

/-- The layout of values printed in a radix. Decimal numbers stand at the right
of a column; the other two radixes always show all bits. -/
def layout : Radix → Layout
  | .binary => .binary
  | .decimal => .column
  | .hexadecimal => .hexadecimal

def format (radix : Radix) (value : Value) : String :=
  value.text radix.layout

theorem ofValue?_eq_some_iff (value : Value) (radix : Radix) :
    ofValue? value = some radix ↔ radix.base = value.low32 := by
  constructor
  · intro found
    simpa using List.find?_some found
  · intro named
    simp only [ofValue?, ← named]
    cases radix with
    | binary => rfl
    | decimal => rfl
    | hexadecimal => rfl

end Radix

end WordCalc
