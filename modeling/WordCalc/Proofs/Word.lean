import Mathlib.Data.BitVec
import WordCalc.Value

/-!
Words as numbers: what the payloads of words are, which numbers the words of a
signedness hold, and what division and repeated squaring compute.
-/

namespace WordCalc

namespace Signedness

theorem join_eq_signed_iff (one other : Signedness) :
    one.join other = .signed ↔ one = .signed ∨ other = .signed := by
  cases one <;> cases other <;> simp [join]

theorem join_comm (one other : Signedness) : one.join other = other.join one := by
  cases one <;> cases other <;> rfl

theorem join_assoc (one other third : Signedness) :
    (one.join other).join third = one.join (other.join third) := by
  cases one <;> cases other <;> cases third <;> rfl

theorem join_self (signedness : Signedness) : signedness.join signedness = signedness := by
  cases signedness <;> rfl

instance : Std.Commutative join := ⟨join_comm⟩
instance : Std.Associative join := ⟨join_assoc⟩
instance : Std.IdempotentOp join := ⟨join_self⟩

theorem join_unsigned (signedness : Signedness) : signedness.join .unsigned = signedness := by
  cases signedness <;> rfl

theorem join_join_left (one other : Signedness) :
    (one.join other).join one = one.join other := by
  ac_rfl

theorem join_join_right (one other : Signedness) :
    (one.join other).join other = one.join other := by
  ac_rfl

def Holds (signedness : Signedness) (number : Int) : Prop :=
  match signedness with
  | .unsigned => 0 ≤ number ∧ number < 2 ^ 64
  | .signed => -2 ^ 63 ≤ number ∧ number < 2 ^ 63

theorem Holds.of_between {signedness : Signedness} {number other : Int}
    (held : signedness.Holds number)
    (between : 0 ≤ other ∧ other ≤ number ∨ number ≤ other ∧ other ≤ 0) :
    signedness.Holds other := by
  cases signedness with
  | unsigned =>
      obtain ⟨above, below⟩ := held
      rcases between with ⟨positive, smaller⟩ | ⟨larger, negative⟩
      · constructor <;> omega
      · constructor <;> omega
  | signed =>
      obtain ⟨above, below⟩ := held
      rcases between with ⟨positive, smaller⟩ | ⟨larger, negative⟩
      · constructor <;> omega
      · constructor <;> omega

end Signedness

namespace Value

theorem payload_holds (value : Value) : value.signedness.Holds value.payload := by
  obtain ⟨signedness, bits⟩ := value
  cases signedness with
  | unsigned =>
      have below := bits.isLt
      simp only [Signedness.Holds, payload]
      omega
  | signed =>
      have above := BitVec.le_toInt bits
      have below := BitVec.toInt_lt (x := bits)
      exact ⟨above, below⟩

theorem payload_bounds (value : Value) :
    -2 ^ 63 ≤ value.payload ∧ value.payload < 2 ^ 64 := by
  have held := value.payload_holds
  cases kind : value.signedness with
  | unsigned =>
      obtain ⟨above, below⟩ : Signedness.unsigned.Holds value.payload := kind ▸ held
      omega
  | signed =>
      obtain ⟨above, below⟩ : Signedness.signed.Holds value.payload := kind ▸ held
      omega

theorem toNat_bits_ofInt_eq_emod (signedness : Signedness) (number : Int) :
    ((ofInt signedness number).bits.toNat : Int) = number % 2 ^ 64 := by
  rw [ofInt, BitVec.toNat_ofInt, Int.toNat_of_nonneg (Int.emod_nonneg _ (by decide))]
  norm_cast

theorem payload_ofInt_unsigned (number : Int) :
    (ofInt .unsigned number).payload = number % 2 ^ 64 :=
  toNat_bits_ofInt_eq_emod .unsigned number

theorem payload_ofInt_signed (number : Int) :
    (ofInt .signed number).payload = number.bmod (2 ^ 64) := by
  simp only [payload, ofInt, BitVec.toInt_ofInt]

theorem payload_ofInt_of_holds {signedness : Signedness} {number : Int}
    (held : signedness.Holds number) : (ofInt signedness number).payload = number := by
  cases signedness with
  | unsigned =>
      rw [payload_ofInt_unsigned]
      exact Int.emod_eq_of_lt held.1 held.2
  | signed =>
      rw [payload_ofInt_signed]
      obtain ⟨above, below⟩ := held
      exact Int.bmod_eq_of_le (by omega) (by omega)

theorem bits_ofInt_payload (signedness : Signedness) (value : Value) :
    (ofInt signedness value.payload).bits = value.bits := by
  have same := congrArg bits (ofInt_payload value)
  exact same

theorem toNat_bits_ofInt (signedness : Signedness) {number : Nat} (small : number < 2 ^ 64) :
    (ofInt signedness number).bits.toNat = number := by
  rw [ofInt, BitVec.ofInt_natCast, BitVec.toNat_ofNat, Nat.mod_eq_of_lt small]

theorem ofInt_toNat (signedness : Signedness) (bits : BitVec 64) :
    ofInt signedness bits.toNat = { signedness, bits } := by
  rw [ofInt, BitVec.ofInt_natCast, BitVec.ofNat_toNat, BitVec.setWidth_eq]

/-! ### Readings -/

/-- The number that the pattern of a value stands for when it is read with the
given signedness. -/
def readAs (signedness : Signedness) (value : Value) : Int :=
  (value.reinterpret signedness).payload

theorem readAs_holds (signedness : Signedness) (value : Value) :
    signedness.Holds (value.readAs signedness) :=
  payload_holds (value.reinterpret signedness)

theorem ofInt_readAs (signedness : Signedness) (value : Value) :
    ofInt signedness (value.readAs signedness) = value.reinterpret signedness :=
  ofInt_payload (value.reinterpret signedness)

theorem bits_ofInt_readAs (signedness : Signedness) (value : Value) :
    BitVec.ofInt 64 (value.readAs signedness) = value.bits :=
  congrArg bits (ofInt_readAs signedness value)

/-- Zero is the pattern of zeros, however it is read. -/
theorem readAs_eq_zero_iff (signedness : Signedness) (value : Value) :
    value.readAs signedness = 0 ↔ value.payload = 0 :=
  (isZero_iff_payload_eq_zero (value.reinterpret signedness)).symm.trans
    (isZero_iff_payload_eq_zero value)

theorem readAs_emod (signedness : Signedness) (value : Value) :
    value.readAs signedness % 2 ^ 64 = value.bits.toNat := by
  rw [← toNat_bits_ofInt_eq_emod signedness, ofInt_readAs, bits_reinterpret]

end Value

namespace Value

/-- Division of words is division of what they stand for, rounded toward zero. -/
theorem ofInt_tdiv (signedness : Signedness) (left right : BitVec 64) :
    ofInt signedness ((mk signedness left).payload.tdiv (mk signedness right).payload) =
      { signedness
        bits :=
          match signedness with
          | .unsigned => left / right
          | .signed => left.sdiv right } := by
  cases signedness with
  | unsigned =>
      simp only [payload]
      rw [← Int.ofNat_tdiv, ← BitVec.toNat_udiv, ofInt_toNat]
  | signed =>
      simp only [payload, ofInt]
      congr 1
      apply BitVec.eq_of_toInt_eq
      rw [BitVec.toInt_ofInt, BitVec.toInt_sdiv]

theorem ofInt_tmod (signedness : Signedness) (left right : BitVec 64) :
    ofInt signedness ((mk signedness left).payload.tmod (mk signedness right).payload) =
      { signedness
        bits :=
          match signedness with
          | .unsigned => left % right
          | .signed => left.srem right } := by
  cases signedness with
  | unsigned =>
      simp only [payload]
      rw [← Int.ofNat_tmod, ← BitVec.toNat_umod, ofInt_toNat]
  | signed =>
      simp only [payload, ofInt]
      rw [← BitVec.toInt_srem, BitVec.ofInt_toInt]

theorem ofInt_ediv_two_pow (signedness : Signedness) (word : BitVec 64) (places : Nat) :
    ofInt signedness ((mk signedness word).payload / 2 ^ places) =
      { signedness
        bits :=
          match signedness with
          | .unsigned => word >>> places
          | .signed => word.sshiftRight places } := by
  cases signedness with
  | unsigned =>
      have shifted : ((word >>> places).toNat : Int) = word.toNat / 2 ^ places := by
        rw [BitVec.toNat_ushiftRight, Nat.shiftRight_eq_div_pow]
        norm_cast
      simp only [payload]
      rw [← shifted, ofInt_toNat]
  | signed =>
      have shifted : (word.sshiftRight places).toInt = word.toInt / 2 ^ places := by
        rw [BitVec.toInt_sshiftRight, Int.shiftRight_eq_div_pow]
        norm_cast
      simp only [payload, ofInt]
      rw [← shifted, BitVec.ofInt_toInt]

/-- From 64 places on a shift to the right leaves the sign alone. -/
theorem payload_ediv_two_pow_min (value : Value) (places : Nat) :
    value.payload / 2 ^ min places 64 = value.payload / 2 ^ places := by
  rcases Nat.le_total places 64 with few | many
  · rw [Nat.min_eq_left few]
  · obtain ⟨above, below⟩ := value.payload_bounds
    have wide : (2 : Int) ^ 64 ≤ 2 ^ places := by
      exact_mod_cast Nat.pow_le_pow_right Nat.two_pos many
    rw [Nat.min_eq_right many]
    rcases Int.lt_or_le value.payload 0 with negative | nonnegative
    · rw [Int.ediv_eq_neg_one_of_neg_of_le negative (by omega),
        Int.ediv_eq_neg_one_of_neg_of_le negative (by omega)]
    · rw [Int.ediv_eq_zero_of_lt nonnegative below,
        Int.ediv_eq_zero_of_lt nonnegative (below.trans_le wide)]

end Value

/-- Repeated squaring computes the power, as long as the exponent has no more
bits than were asked for. -/
theorem powBits_eq_pow (base : BitVec 64) (width exponent : Nat)
    (bounded : exponent < 2 ^ width) :
    powBits base width exponent = base ^ exponent := by
  induction width generalizing base exponent with
  | zero =>
      have atZero : exponent = 0 := by omega
      subst atZero
      rfl
  | succ width ih =>
      rw [Nat.pow_succ] at bounded
      have squares : powBits (base * base) width (exponent / 2) = base ^ (2 * (exponent / 2)) := by
        rw [ih (base * base) (exponent / 2) (by omega), pow_mul, sq]
      simp only [powBits, squares]
      split
      · rename_i odd
        have split : 2 * (exponent / 2) + 1 = exponent := by omega
        rw [← pow_succ', split]
      · rename_i even
        have split : 2 * (exponent / 2) = exponent := by omega
        rw [split]

theorem Value.bits_power (base exponent : Value) :
    (base.power exponent).bits = base.bits ^ exponent.low32 := by
  have bounded : exponent.low32 < 2 ^ 32 := (exponent.bits.setWidth 32).isLt
  exact powBits_eq_pow base.bits 32 exponent.low32 bounded

end WordCalc
