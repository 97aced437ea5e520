import WordCalc.Operation
import WordCalc.Proofs.Word

/-!
Failures underneath the faults.

What the machine is built on fails in ways of its own: an id is not among the
keys, a list has no last element, a number names nothing, a number is divided
by zero. None of these is a fault. The first three are reported as faults where
they occur. A division by zero is not, so a zero divisor has to be found before
anything is divided.
-/

namespace WordCalc

inductive Trouble
  | fault (fault : Fault)
  | missingKey
  | noElement
  | noMember
  | zeroDivision
  deriving DecidableEq

/-- Reports a failed look-up as the given fault. Faults pass, and so does a
division by zero. -/
def Trouble.reportedAs {α : Type} (fault : Fault) : Except Trouble α → Except Trouble α
  | .error .missingKey | .error .noElement | .error .noMember => .error (.fault fault)
  | .error (.fault other) => .error (.fault other)
  | .error .zeroDivision => .error .zeroDivision
  | .ok result => .ok result

namespace Numeral

def quotient (dividend divisor : Nat) : Except Trouble Nat :=
  if divisor = 0 then .error .zeroDivision else .ok (dividend / divisor)

def truncatedQuotient (dividend divisor : Int) : Except Trouble Int :=
  (quotient dividend.natAbs divisor.natAbs).map fun magnitude =>
    if (dividend < 0) ≠ (divisor < 0) then -magnitude else magnitude

def truncatedRemainder (dividend divisor : Int) : Except Trouble Int :=
  (truncatedQuotient dividend divisor).map fun quotient => dividend - divisor * quotient

theorem truncatedQuotient_of_ne_zero (dividend : Int) {divisor : Int} (nonzero : divisor ≠ 0) :
    truncatedQuotient dividend divisor = .ok (dividend.tdiv divisor) := by
  simp only [truncatedQuotient, quotient, if_neg (Int.natAbs_ne_zero.mpr nonzero), Except.map]
  have natural (number : Nat) : ¬ (number : Int) < 0 := Int.not_lt.mpr (Int.natCast_nonneg number)
  cases dividend with
  | ofNat dividend =>
      cases divisor with
      | ofNat divisor => simp [Int.tdiv, natural]
      | negSucc divisor => simp [Int.tdiv, natural]
  | negSucc dividend =>
      cases divisor with
      | ofNat divisor => simp [Int.tdiv, natural]
      | negSucc divisor => simp [Int.tdiv]

theorem truncatedRemainder_of_ne_zero (dividend : Int) {divisor : Int} (nonzero : divisor ≠ 0) :
    truncatedRemainder dividend divisor = .ok (dividend.tmod divisor) := by
  rw [truncatedRemainder, truncatedQuotient_of_ne_zero dividend nonzero, Int.tmod_def]
  rfl

end Numeral

namespace BinaryOp

/-- Divides two values by way of the numbers that they stand for in the
signedness of the result. The divisor is tested before that, as it was given. -/
def dividing (divide : Int → Int → Except Trouble Int) (left right : Value) :
    Except Trouble Value :=
  let signedness := left.signedness.join right.signedness
  if right.payload = 0 then .error (.fault .zeroDivisor)
  else
    (divide (left.readAs signedness) (right.readAs signedness)).map (Value.ofInt signedness)

def attempt (operator : BinaryOp) (left right : Value) : Except Trouble Value :=
  match operator with
  | .divide => dividing Numeral.truncatedQuotient left right
  | .remainder => dividing Numeral.truncatedRemainder left right
  | .add => .ok (left + right)
  | .subtract => .ok (left - right)
  | .multiply => .ok (left * right)
  | .power => .ok (left.power right)
  | .and => .ok (left &&& right)
  | .or => .ok (left ||| right)
  | .xor => .ok (left ^^^ right)
  | .shiftLeft => .ok (left <<< right)
  | .shiftRight => .ok (left >>> right)

private theorem dividing_eq {divide : Int → Int → Except Trouble Int}
    {result : Int → Int → Int}
    (divides : ∀ dividend {divisor : Int}, divisor ≠ 0 →
      divide dividend divisor = .ok (result dividend divisor)) (left right : Value) :
    dividing divide left right =
      if right.isZero then .error (.fault .zeroDivisor)
      else
        let signedness := left.signedness.join right.signedness
        .ok (.ofInt signedness (result (left.readAs signedness) (right.readAs signedness))) := by
  have tested := Value.isZero_iff_payload_eq_zero right
  by_cases zero : right.payload = 0
  · rw [dividing, if_pos zero, if_pos (tested.mpr zero)]
  · rw [dividing, if_neg zero, if_neg fun found => zero (tested.mp found),
      divides _ fun read => zero ((Value.readAs_eq_zero_iff _ right).mp read)]
    rfl

/-- No division is by zero: an operator that has no result says so by a fault. -/
theorem attempt_eq (operator : BinaryOp) (left right : Value) :
    operator.attempt left right =
      match operator.apply? left right with
      | some result => .ok result
      | none => .error (.fault .zeroDivisor) := by
  cases operator with
  | divide =>
      rw [attempt, dividing_eq Numeral.truncatedQuotient_of_ne_zero, BinaryOp.apply?, Value.divide?]
      cases right.isZero with
      | true => rfl
      | false => exact congrArg Except.ok (Value.ofInt_tdiv _ left.bits right.bits)
  | remainder =>
      rw [attempt, dividing_eq Numeral.truncatedRemainder_of_ne_zero, BinaryOp.apply?,
        Value.remainder?]
      cases right.isZero with
      | true => rfl
      | false => exact congrArg Except.ok (Value.ofInt_tmod _ left.bits right.bits)
  | _ => rfl

end BinaryOp

namespace Radix

def ofBase (base : Nat) : Except Trouble Radix :=
  match all.find? fun radix => radix.base == base with
  | some radix => .ok radix
  | none => .error .noMember

def attempt (value : Value) : Except Trouble Radix :=
  Trouble.reportedAs (.badRadix value) (ofBase value.low32)

theorem attempt_eq (value : Value) :
    attempt value =
      match ofValue? value with
      | some radix => .ok radix
      | none => .error (.fault (.badRadix value)) := by
  rw [attempt, ofBase, ofValue?]
  cases all.find? fun radix => radix.base == value.low32 with
  | none => rfl
  | some radix => rfl

end Radix

end WordCalc
