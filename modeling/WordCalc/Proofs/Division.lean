import WordCalc.Proofs.Expression
import WordCalc.Proofs.Trouble
import WordCalc.Proofs.Wrapping

/-!
Division, with its remainder.

Quotients are rounded toward zero, and remainders have the sign of the dividend.
A divisor is tested for zero as it was given, before it is read in the
signedness of the result; that is the same, because only the pattern of zeros
stands for zero. One quotient does not fit into a word: that of the smallest
signed number by minus one.
-/

namespace WordCalc

theorem Numeral.abs_tmod_lt (dividend : Int) {divisor : Int} (nonzero : divisor ≠ 0) :
    |dividend.tmod divisor| < |divisor| := by
  have magnitude := Int.natAbs_tmod dividend divisor
  have positive : 0 < divisor.natAbs := Int.natAbs_pos.mpr nonzero
  have below := Nat.mod_lt dividend.natAbs positive
  rw [Int.abs_eq_natAbs, Int.abs_eq_natAbs]
  omega

theorem Numeral.tmod_sign (dividend divisor : Int) :
    dividend.tmod divisor = 0 ∨ (dividend.tmod divisor).sign = dividend.sign := by
  have sign := Int.sign_tmod dividend divisor
  split at sign
  · exact .inl (Int.sign_eq_zero_iff_zero.mp sign)
  · exact .inr sign

theorem Numeral.tmod_between (dividend divisor : Int) :
    0 ≤ dividend.tmod divisor ∧ dividend.tmod divisor ≤ dividend ∨
      dividend ≤ dividend.tmod divisor ∧ dividend.tmod divisor ≤ 0 := by
  have magnitude := Int.natAbs_tmod dividend divisor
  have smaller := Nat.mod_le dividend.natAbs divisor.natAbs
  rcases Int.le_total 0 dividend with positive | negative
  · have remains := Int.tmod_nonneg divisor positive
    omega
  · have remains := Int.tmod_nonneg divisor (Int.neg_nonneg_of_nonpos negative)
    rw [Int.neg_tmod] at remains
    omega

namespace Signedness

theorem Holds.tmod {signedness : Signedness} {dividend : Int}
    (held : signedness.Holds dividend) (divisor : Int) :
    signedness.Holds (dividend.tmod divisor) :=
  held.of_between (Numeral.tmod_between dividend divisor)

/-- Past minus one, the quotient of the smallest signed number is at most half
as large. -/
private theorem smallest_tdiv_bounds {divisor : Int} (nonzero : divisor ≠ 0)
    (notMinusOne : divisor ≠ -1) :
    -2 ^ 63 ≤ (-2 ^ 63 : Int).tdiv divisor ∧ (-2 ^ 63 : Int).tdiv divisor < 2 ^ 63 := by
  by_cases one : divisor = 1
  · rw [one, Int.tdiv_one]
    decide
  · have magnitude : ((-2 ^ 63 : Int).tdiv divisor).natAbs = 2 ^ 63 / divisor.natAbs :=
      Int.natAbs_tdiv _ divisor
    have halved : 2 ^ 63 / divisor.natAbs ≤ 2 ^ 63 / 2 :=
      Nat.div_le_div_left (by omega) Nat.two_pos
    omega

theorem Holds.tdiv {signedness : Signedness} {dividend divisor : Int}
    (dividendHeld : signedness.Holds dividend) (divisorHeld : signedness.Holds divisor)
    (nonzero : divisor ≠ 0) (fits : ¬ (dividend = -2 ^ 63 ∧ divisor = -1)) :
    signedness.Holds (dividend.tdiv divisor) := by
  have small := Int.natAbs_tdiv_le_natAbs dividend divisor
  cases signedness with
  | unsigned =>
      obtain ⟨nonnegative, below⟩ := dividendHeld
      have positive := Int.tdiv_nonneg nonnegative divisorHeld.1
      constructor <;> omega
  | signed =>
      obtain ⟨above, below⟩ := dividendHeld
      by_cases smallest : dividend = -2 ^ 63
      · subst smallest
        exact smallest_tdiv_bounds nonzero fun minusOne => fits ⟨rfl, minusOne⟩
      · constructor <;> omega

end Signedness

namespace BinaryOp

/-- The operator has the result, also when it is attempted by way of numbers. -/
def Gives (operator : BinaryOp) (left right result : Value) : Prop :=
  operator.apply? left right = some result ∧ operator.attempt left right = .ok result

/-- The operator has no result, and an attempt finds the zero divisor before
anything is divided by it. -/
def FindsZero (operator : BinaryOp) (left right : Value) : Prop :=
  operator.apply? left right = none ∧ operator.attempt left right = .error (.fault .zeroDivisor)

theorem gives_of_ne_zero (operator : BinaryOp) (left : Value) {right : Value}
    (nonzero : right.payload ≠ 0) :
    let signedness := left.signedness.join right.signedness
    operator.Gives left right
      (.ofInt signedness
        (operator.onIntegers (left.readAs signedness) (right.readAs signedness))) := by
  intro signedness
  have attempted := operator.attempt_eq left right
  cases found : operator.apply? left right with
  | none =>
      have zero := ((operator.apply?_eq_none_iff left right).mp found).2
      exact absurd zero nonzero
  | some result =>
      obtain rfl := operator.result_eq_ofInt found
      rw [found] at attempted
      exact ⟨found, attempted⟩

theorem findsZero_of_eq_zero {operator : BinaryOp} (left : Value) {right : Value}
    (divides : operator = .divide ∨ operator = .remainder) (zero : right.payload = 0) :
    operator.FindsZero left right := by
  have attempted := operator.attempt_eq left right
  have missing := (operator.apply?_eq_none_iff left right).mpr ⟨divides, zero⟩
  rw [missing] at attempted
  exact ⟨missing, attempted⟩

end BinaryOp

/-! ### The law of division -/

namespace Value

/-- The quotient and the remainder of two numbers, as values of a signedness that
holds both numbers. -/
structure Divided (signedness : Signedness) (x y : Int) (quotient remainder : Value) : Prop where
  quotient_signedness : quotient.signedness = signedness
  remainder_signedness : remainder.signedness = signedness
  remainder_small : |remainder.payload| < |y|
  remainder_sign : remainder.payload = 0 ∨ remainder.payload.sign = x.sign
  quotient_payload : ¬ (x = -2 ^ 63 ∧ y = -1) → quotient.payload = x.tdiv y
  overflow : x = -2 ^ 63 ∧ y = -1 → quotient.payload = -2 ^ 63 ∧ remainder.payload = 0

theorem divided_ofInt {signedness : Signedness} {x y : Int} (held : signedness.Holds x)
    (divisorHeld : signedness.Holds y) (nonzero : y ≠ 0) :
    Divided signedness x y (ofInt signedness (x.tdiv y)) (ofInt signedness (x.tmod y)) := by
  have remainder : (ofInt signedness (x.tmod y)).payload = x.tmod y :=
    payload_ofInt_of_holds (held.tmod y)
  constructor
  · rfl
  · rfl
  · rw [remainder]
    exact Numeral.abs_tmod_lt x nonzero
  · rw [remainder]
    exact Numeral.tmod_sign x y
  · intro fits
    exact payload_ofInt_of_holds (held.tdiv divisorHeld nonzero fits)
  · rintro ⟨rfl, rfl⟩
    -- an unsigned word holds neither number
    cases signedness with
    | unsigned => exact absurd held.1 (by decide)
    | signed => exact ⟨by decide, by decide⟩

/-- Wrapped quotients and remainders give the dividend back, even where the
quotient was too large. -/
theorem ofInt_tdiv_mul_add_tmod (dividend divisor : Value) :
    let signedness := dividend.signedness.join divisor.signedness
    let x := dividend.readAs signedness
    let y := divisor.readAs signedness
    ofInt signedness (x.tdiv y) * divisor + ofInt signedness (x.tmod y) =
      dividend.reinterpret signedness := by
  intro signedness x y
  have absorbed : signedness.join divisor.signedness = signedness :=
    Signedness.join_join_right dividend.signedness divisor.signedness
  calc
    ofInt signedness (x.tdiv y) * divisor + ofInt signedness (x.tmod y)
    _ = ofInt signedness (x.tdiv y * y) + ofInt signedness (x.tmod y) := by
      rw [ofInt_mul_value absorbed]
    _ = ofInt signedness (x.tdiv y * y + x.tmod y) := by
      rw [ofInt_add, Signedness.join_self]
    _ = dividend.reinterpret signedness := by
      rw [Int.tdiv_mul_add_tmod, ofInt_readAs]

/-- Two values have a quotient and a remainder unless the divisor is zero as it
was given, which is to say as it is read. The two are those of the numbers that
are read, rounded toward zero and wrapped. -/
theorem division_law (dividend divisor : Value) :
    let signedness := dividend.signedness.join divisor.signedness
    let x := dividend.readAs signedness
    let y := divisor.readAs signedness
    (signedness = .signed ↔
        dividend.signedness = .signed ∨ divisor.signedness = .signed) ∧
      (divisor.payload = 0 ↔ y = 0) ∧
      if divisor.payload = 0 then
        BinaryOp.divide.FindsZero dividend divisor ∧ BinaryOp.remainder.FindsZero dividend divisor
      else
        ∃ quotient remainder,
          BinaryOp.divide.Gives dividend divisor quotient ∧
            BinaryOp.remainder.Gives dividend divisor remainder ∧
            Divided signedness x y quotient remainder ∧
            quotient * divisor + remainder = dividend.reinterpret signedness := by
  intro signedness x y
  have read : y = 0 ↔ divisor.payload = 0 := readAs_eq_zero_iff signedness divisor
  refine ⟨Signedness.join_eq_signed_iff _ _, read.symm, ?_⟩
  split
  · rename_i zero
    exact ⟨BinaryOp.findsZero_of_eq_zero dividend (.inl rfl) zero,
      BinaryOp.findsZero_of_eq_zero dividend (.inr rfl) zero⟩
  · rename_i nonzero
    have divided := divided_ofInt (readAs_holds signedness dividend)
      (readAs_holds signedness divisor) (mt read.mp nonzero)
    exact ⟨_, _, BinaryOp.divide.gives_of_ne_zero dividend nonzero,
      BinaryOp.remainder.gives_of_ne_zero dividend nonzero, divided,
      ofInt_tdiv_mul_add_tmod dividend divisor⟩

example :
    let smallest := ofInt .signed (-2 ^ 63)
    smallest.divide? (ofInt .signed (-1)) = some smallest ∧
      smallest.remainder? (ofInt .signed (-1)) = some (ofInt .signed 0) := by
  decide

end Value

end WordCalc
