import Mathlib.Data.Int.Bitwise
import WordCalc.Operation
import WordCalc.Proofs.Word

/-!
Integers wrapped into words.

A word keeps the lowest places of an integer in two's complement. Each place of
a sum, a difference, a product or a bitwise combination depends on no higher
places of the operands, so nothing is lost if these are wrapped first.

An operator on two values reads both in the signedness of the result, does to
the two integers what it does to integers of any size, and wraps what comes out.
One equation says so for all operators. Nothing limits the places of a shift or
the size of a power before the wrapping.
-/

namespace WordCalc

namespace Numeral

/-- A mask of low places gives the remainder, also of a negative integer, whose
places go on with ones. -/
theorem land_two_pow_sub_one (number : Int) (places : Nat) :
    number.land (2 ^ places - 1) = number % 2 ^ places := by
  have mask : ((2 : Int) ^ places - 1) = ((2 ^ places - 1 : Nat) : Int) := by
    rw [Nat.cast_sub Nat.one_le_two_pow]
    norm_cast
  have positive : (0 : Int) < 2 ^ places := Int.pow_pos (by decide)
  rw [mask]
  cases number with
  | ofNat number =>
      change ((number &&& (2 ^ places - 1) : Nat) : Int) = (number : Int) % 2 ^ places
      rw [Nat.and_two_pow_sub_one_eq_mod]
      norm_cast
  | negSucc number =>
      have below : number % 2 ^ places < 2 ^ places := Nat.mod_lt _ (Nat.two_pow_pos places)
      have complement : Nat.ldiff (2 ^ places - 1) number =
          2 ^ places - (number % 2 ^ places + 1) := by
        apply Nat.eq_of_testBit_eq
        intro place
        rw [Nat.testBit_ldiff, Nat.testBit_two_pow_sub_one, Nat.testBit_two_pow_sub_succ below,
          Nat.testBit_mod_two_pow]
        by_cases inside : place < places
        · simp [inside]
        · simp [inside]
      change ((Nat.ldiff (2 ^ places - 1) number : Nat) : Int) = _
      rw [complement, Int.negSucc_emod _ positive, Nat.cast_sub below]
      push_cast
      omega

end Numeral

namespace Word

variable {width : Nat}

theorem ofInt_sub (left right : Int) :
    BitVec.ofInt width (left - right) = BitVec.ofInt width left - BitVec.ofInt width right := by
  rw [Int.sub_eq_add_neg, BitVec.ofInt_add, BitVec.ofInt_neg, BitVec.sub_eq_add_neg]

theorem ofInt_pow (base : Int) (exponent : Nat) :
    BitVec.ofInt width (base ^ exponent) = BitVec.ofInt width base ^ exponent := by
  induction exponent with
  | zero =>
      rw [Int.pow_zero, pow_zero]
      rfl
  | succ exponent ih => rw [Int.pow_succ, BitVec.ofInt_mul, ih, pow_succ]

theorem ofInt_mul_two_pow (number : Int) (places : Nat) :
    BitVec.ofInt width (number * 2 ^ places) = BitVec.ofInt width number <<< places := by
  have power : BitVec.ofInt width (2 ^ places) = BitVec.twoPow width places := by
    have natural : (2 ^ places : Int) = ((2 ^ places : Nat) : Int) := by norm_cast
    rw [natural, BitVec.ofInt_natCast]
    apply BitVec.eq_of_toNat_eq
    rw [BitVec.toNat_ofNat, BitVec.toNat_twoPow]
  rw [BitVec.ofInt_mul, power, BitVec.shiftLeft_eq_mul_twoPow]

theorem ofInt_complement (number : Int) :
    BitVec.ofInt width (-number - 1) = ~~~BitVec.ofInt width number := by
  rw [ofInt_sub, BitVec.ofInt_neg, BitVec.not_eq_neg_add]
  congr 1

/-- The places of a wrapped integer are its places in two's complement. -/
theorem getLsbD_ofInt (number : Int) {place : Nat} (inside : place < width) :
    (BitVec.ofInt width number).getLsbD place = number.testBit place := by
  cases number with
  | ofNat number =>
      rw [Int.ofNat_eq_natCast, BitVec.ofInt_natCast, BitVec.getLsbD_ofNat]
      simp only [inside, decide_true, Bool.true_and]
      rfl
  | negSucc number =>
      rw [BitVec.ofInt_negSucc_eq_not_ofNat, BitVec.getLsbD_not, BitVec.getLsbD_ofNat]
      simp only [inside, decide_true, Bool.true_and]
      rfl

/-- An operation that combines integers place by place can be computed on words,
place by place. -/
theorem ofInt_placewise {onPlaces : Bool → Bool → Bool} {onIntegers : Int → Int → Int}
    (integers : ∀ left right place,
      (onIntegers left right).testBit place =
        onPlaces (left.testBit place) (right.testBit place))
    {onWords : BitVec width → BitVec width → BitVec width}
    (words : ∀ left right place,
      (onWords left right).getLsbD place = onPlaces (left.getLsbD place) (right.getLsbD place))
    (left right : Int) :
    BitVec.ofInt width (onIntegers left right) =
      onWords (BitVec.ofInt width left) (BitVec.ofInt width right) := by
  apply BitVec.eq_of_getLsbD_eq
  intro place inside
  rw [words, getLsbD_ofInt _ inside, getLsbD_ofInt _ inside, getLsbD_ofInt _ inside, integers]

theorem ofInt_land (left right : Int) :
    BitVec.ofInt width (left.land right) = BitVec.ofInt width left &&& BitVec.ofInt width right :=
  ofInt_placewise Int.testBit_land (fun _ _ _ => BitVec.getLsbD_and) left right

theorem ofInt_lor (left right : Int) :
    BitVec.ofInt width (left.lor right) = BitVec.ofInt width left ||| BitVec.ofInt width right :=
  ofInt_placewise Int.testBit_lor (fun _ _ _ => BitVec.getLsbD_or) left right

theorem ofInt_xor (left right : Int) :
    BitVec.ofInt width (left.xor right) = BitVec.ofInt width left ^^^ BitVec.ofInt width right :=
  ofInt_placewise Int.testBit_lxor (fun _ _ _ => BitVec.getLsbD_xor) left right

end Word

/-! ### Values -/

namespace Value

section

variable {operation : Signedness → BitVec 64 → BitVec 64 → BitVec 64}

/-- The bits of a result may be computed from an integer. -/
theorem combine_eq_ofInt {left right : Value} {number : Int}
    (computes : BitVec.ofInt 64 number =
      operation (left.signedness.join right.signedness) left.bits right.bits) :
    combine operation left right = ofInt (left.signedness.join right.signedness) number :=
  congrArg (mk (left.signedness.join right.signedness)) computes.symm

variable {number : Int → Int → Int}
  (wraps : ∀ signedness left right,
    BitVec.ofInt 64 (number left right) =
      operation signedness (BitVec.ofInt 64 left) (BitVec.ofInt 64 right))

include wraps

theorem combine_ofInt (one other : Signedness) (left right : Int) :
    combine operation (ofInt one left) (ofInt other right) =
      ofInt (one.join other) (number left right) :=
  combine_eq_ofInt (wraps (one.join other) left right)

/-- The operands may be read in the signedness of the result first. -/
theorem combine_readings (left right : Value) :
    let signedness := left.signedness.join right.signedness
    combine operation left right =
      ofInt signedness (number (left.readAs signedness) (right.readAs signedness)) := by
  intro signedness
  apply combine_eq_ofInt
  rw [wraps signedness, bits_ofInt_readAs, bits_ofInt_readAs]

end

theorem ofInt_mul (one other : Signedness) (left right : Int) :
    ofInt one left * ofInt other right = ofInt (one.join other) (left * right) :=
  combine_ofInt (fun _ => BitVec.ofInt_mul) one other left right

theorem ofInt_add (one other : Signedness) (left right : Int) :
    ofInt one left + ofInt other right = ofInt (one.join other) (left + right) :=
  combine_ofInt (fun _ => BitVec.ofInt_add) one other left right

theorem ofInt_sub (one other : Signedness) (left right : Int) :
    ofInt one left - ofInt other right = ofInt (one.join other) (left - right) :=
  combine_ofInt (fun _ => Word.ofInt_sub) one other left right

/-- A factor may be read in any signedness that the product has anyway. -/
theorem ofInt_mul_value {signedness : Signedness} {value : Value}
    (absorbed : signedness.join value.signedness = signedness) (number : Int) :
    ofInt signedness number * value = ofInt signedness (number * value.readAs signedness) := by
  have bits : BitVec.ofInt 64 number * value.bits =
      BitVec.ofInt 64 (number * value.readAs signedness) := by
    rw [BitVec.ofInt_mul, bits_ofInt_readAs]
  exact congrArg₂ mk absorbed bits

/-- Sums, differences, products and bitwise combinations of two integers, and the
complement of one, may be taken before or after wrapping. The result is signed
as soon as one of the wrapped operands is. -/
theorem wrapping_commutes (one other : Signedness) (left right : Int) :
    (one.join other = .signed ↔ one = .signed ∨ other = .signed) ∧
      ofInt one left + ofInt other right = ofInt (one.join other) (left + right) ∧
      ofInt one left - ofInt other right = ofInt (one.join other) (left - right) ∧
      ofInt one left * ofInt other right = ofInt (one.join other) (left * right) ∧
      ofInt one left &&& ofInt other right = ofInt (one.join other) (left.land right) ∧
      ofInt one left ||| ofInt other right = ofInt (one.join other) (left.lor right) ∧
      ofInt one left ^^^ ofInt other right = ofInt (one.join other) (left.xor right) ∧
      ~~~ofInt one left = ofInt one (-left - 1) := by
  refine ⟨Signedness.join_eq_signed_iff one other, ofInt_add one other left right, ?_,
    ofInt_mul one other left right, ?_, ?_, ?_, ?_⟩
  · exact combine_ofInt (fun _ => Word.ofInt_sub) one other left right
  · exact combine_ofInt (fun _ => Word.ofInt_land) one other left right
  · exact combine_ofInt (fun _ => Word.ofInt_lor) one other left right
  · exact combine_ofInt (fun _ => Word.ofInt_xor) one other left right
  · exact congrArg (Value.mk one) (Word.ofInt_complement left).symm

end Value

/-- What an operator makes of two integers. Exponents are cut to 32 bits, and
numbers of places are the patterns of the integers. -/
def BinaryOp.onIntegers (operator : BinaryOp) (left right : Int) : Int :=
  match operator with
  | .add => left + right
  | .subtract => left - right
  | .multiply => left * right
  | .divide => left.tdiv right
  | .remainder => left.tmod right
  | .power => left ^ (right % 2 ^ 32).toNat
  | .and => left.land right
  | .or => left.lor right
  | .xor => left.xor right
  | .shiftLeft => left * 2 ^ (right % 2 ^ 64).toNat
  | .shiftRight => left / 2 ^ (right % 2 ^ 64).toNat

namespace Value

theorem low32_eq_emod (signedness : Signedness) (value : Value) :
    (value.low32 : Int) = value.readAs signedness % 2 ^ 32 := by
  have read := readAs_emod signedness value
  rw [low32, BitVec.toNat_setWidth]
  omega

theorem toNat_readAs_emod (signedness : Signedness) (value : Value) :
    (value.readAs signedness % 2 ^ 64).toNat = value.bits.toNat := by
  rw [readAs_emod, Int.toNat_natCast]

theorem shiftLeft_shiftPlaces (word count : BitVec 64) :
    word <<< shiftPlaces count = word <<< count.toNat := by
  rcases Nat.le_total count.toNat 64 with few | many
  · rw [shiftPlaces, Nat.min_eq_left few]
  · rw [shiftPlaces, Nat.min_eq_right many, BitVec.shiftLeft_eq_zero (Nat.le_refl 64),
      BitVec.shiftLeft_eq_zero many]

end Value

open Value in
theorem BinaryOp.result_eq_ofInt (operator : BinaryOp) {left right result : Value}
    (found : operator.apply? left right = some result) :
    let signedness := left.signedness.join right.signedness
    result = .ofInt signedness
      (operator.onIntegers (left.readAs signedness) (right.readAs signedness)) := by
  intro signedness
  cases operator with
  | add =>
      cases found
      exact combine_readings (fun _ => BitVec.ofInt_add) left right
  | subtract =>
      cases found
      exact combine_readings (fun _ => Word.ofInt_sub) left right
  | multiply =>
      cases found
      exact combine_readings (fun _ => BitVec.ofInt_mul) left right
  | and =>
      cases found
      exact combine_readings (fun _ => Word.ofInt_land) left right
  | or =>
      cases found
      exact combine_readings (fun _ => Word.ofInt_lor) left right
  | xor =>
      cases found
      exact combine_readings (fun _ => Word.ofInt_xor) left right
  | divide =>
      simp only [divide?, BinaryOp.apply?] at found
      split at found
      · cases found
      · cases found
        exact (ofInt_tdiv signedness left.bits right.bits).symm
  | remainder =>
      simp only [remainder?, BinaryOp.apply?] at found
      split at found
      · cases found
      · cases found
        exact (ofInt_tmod signedness left.bits right.bits).symm
  | power =>
      cases found
      apply combine_eq_ofInt
      rw [onIntegers, ← low32_eq_emod, Int.toNat_natCast, Word.ofInt_pow, bits_ofInt_readAs]
      exact (bits_power left right).symm
  | shiftLeft =>
      cases found
      apply combine_eq_ofInt
      rw [onIntegers, toNat_readAs_emod, Word.ofInt_mul_two_pow, bits_ofInt_readAs,
        shiftLeft_shiftPlaces]
  | shiftRight =>
      cases found
      have capped := payload_ediv_two_pow_min (left.reinterpret signedness) right.bits.toNat
      rw [onIntegers, toNat_readAs_emod, readAs, ← capped]
      exact (ofInt_ediv_two_pow signedness left.bits (shiftPlaces right.bits)).symm

end WordCalc
