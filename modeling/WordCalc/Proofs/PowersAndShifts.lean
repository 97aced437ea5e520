import WordCalc.Proofs.Division

/-!
Powers, shifts, and powers of two.

The exponent of a power is cut to 32 bits and taken as it was given, while the
base is read in the signedness of the result. Squaring and halving gives what
multiplying by the base gives, one factor after the other.

The count of a shift is the pattern of a value, so it can be any number below
`2 ^ 64`. To the left, a shift multiplies by a power of two. To the right, it
divides by one and rounds down, which for signed results repeats the top bit.
Both are the same as so many shifts by a single place.

Masking leaves the remainder of such a division. Division itself rounds toward
zero, so that quotient and remainder differ from these for negative numbers that
are no multiples.
-/

namespace WordCalc

namespace Value

def repeatedProduct (start base : Value) : Nat → Value
  | 0 => start
  | count + 1 => repeatedProduct start base count * base

theorem repeatedProduct_eq_ofInt {signedness : Signedness} {base : Value}
    (absorbed : signedness.join base.signedness = signedness) (count : Nat) :
    repeatedProduct (ofInt signedness 1) base count =
      ofInt signedness (base.readAs signedness ^ count) := by
  induction count with
  | zero => rw [repeatedProduct, pow_zero]
  | succ count ih => rw [repeatedProduct, ih, ofInt_mul_value absorbed, ← pow_succ]

theorem power_eq_ofInt (base exponent : Value) :
    let signedness := base.signedness.join exponent.signedness
    base.power exponent = ofInt signedness (base.readAs signedness ^ exponent.low32) := by
  intro signedness
  have computed : base.power exponent = ofInt signedness
      (base.readAs signedness ^ (exponent.readAs signedness % 2 ^ 32).toNat) :=
    BinaryOp.result_eq_ofInt .power rfl
  rw [computed, ← low32_eq_emod, Int.toNat_natCast]

theorem low32_add (one other : Value) :
    (one + other).low32 = (one.low32 + other.low32) % 2 ^ 32 := by
  change ((one.bits + other.bits).setWidth 32).toNat = _
  rw [BitVec.setWidth_add _ _ (by omega), BitVec.toNat_add]
  rfl

theorem power_mul_power (base : Value) {one other : Value}
    (bounded : one.low32 + other.low32 < 2 ^ 32) :
    base.power one * base.power other = base.power (one + other) := by
  have signedness : (base.signedness.join one.signedness).join
        (base.signedness.join other.signedness) =
      base.signedness.join (one.signedness.join other.signedness) := by
    ac_rfl
  have exponents : (one + other).low32 = one.low32 + other.low32 := by
    rw [low32_add, Nat.mod_eq_of_lt bounded]
  have bits : (base.power one).bits * (base.power other).bits =
      (base.power (one + other)).bits := by
    rw [bits_power, bits_power, bits_power, exponents, pow_add]
  exact congrArg₂ mk signedness bits

/-- A power is the product of one and as many factors as the low 32 bits of the
exponent say, which for a negative exponent are many. So powers of one base
multiply by adding the exponents, as long as 32 bits hold the sum. -/
theorem power_law (base : Value) :
    (∀ exponent : Value,
        let signedness := base.signedness.join exponent.signedness
        (signedness = .signed ↔ base.signedness = .signed ∨ exponent.signedness = .signed) ∧
          (exponent.low32 : Int) = exponent.payload % 2 ^ 32 ∧
          base.power exponent =
            repeatedProduct (ofInt signedness 1) base exponent.low32) ∧
      ∀ one other : Value, one.low32 + other.low32 < 2 ^ 32 →
        base.power one * base.power other = base.power (one + other) := by
  constructor
  · intro exponent signedness
    have absorbed : signedness.join base.signedness = signedness :=
      Signedness.join_join_left base.signedness exponent.signedness
    refine ⟨Signedness.join_eq_signed_iff _ _, low32_eq_emod exponent.signedness exponent, ?_⟩
    rw [power_eq_ofInt, repeatedProduct_eq_ofInt absorbed]
  · intro one other bounded
    exact power_mul_power base bounded

/-- A negative exponent whose low bits are few, with a negative base. -/
theorem power_law_of_negative_exponent :
    let base := ofInt .signed (-3)
    let one := ofInt .signed (5 - 2 ^ 32)
    let other := ofInt .unsigned 7
    one.low32 + other.low32 < 2 ^ 32 ∧
      base.power one * base.power other = base.power (one + other) ∧
      base.power (one + other) = ofInt .signed 531441 := by
  refine ⟨by decide, ?_, by decide⟩
  exact (power_law (ofInt .signed (-3))).2 _ _ (by decide)

end Value

theorem Numeral.two_pow_pos (places : Nat) : (0 : Int) < 2 ^ places :=
  Int.pow_pos (by omega)

theorem Signedness.Holds.ediv_two_pow {signedness : Signedness} {number : Int}
    (held : signedness.Holds number) (places : Nat) :
    signedness.Holds (number / 2 ^ places) := by
  have positive := Numeral.two_pow_pos places
  rcases Int.lt_or_le number 0 with negative | nonnegative
  · have larger := Int.self_le_ediv_of_nonpos_of_nonneg negative.le positive.le
    have remains := Int.ediv_neg_of_neg_of_pos negative positive
    exact held.of_between (.inr ⟨larger, remains.le⟩)
  · have smaller := Int.ediv_le_self (2 ^ places) nonnegative
    have remains := Int.ediv_nonneg nonnegative positive.le
    exact held.of_between (.inl ⟨remains, smaller⟩)

theorem Numeral.ediv_two_pow_add (number : Int) (one other : Nat) :
    number / 2 ^ one / 2 ^ other = number / 2 ^ (one + other) := by
  rw [Int.ediv_ediv_of_nonneg (two_pow_pos one).le, ← pow_add]

namespace Value

def shiftLeftOnce (value : Value) : Value :=
  value <<< ofInt .unsigned 1

def shiftRightOnce (value : Value) : Value :=
  value >>> ofInt .unsigned 1

theorem shiftLeft_ofInt (signedness : Signedness) (number : Int) (count : Value) :
    ofInt signedness number <<< count =
      ofInt (signedness.join count.signedness) (number * 2 ^ count.bits.toNat) := by
  apply combine_eq_ofInt
  rw [Word.ofInt_mul_two_pow, shiftLeft_shiftPlaces]
  rfl

theorem shiftLeft_eq_ofInt (value count : Value) :
    let signedness := value.signedness.join count.signedness
    value <<< count = ofInt signedness (value.readAs signedness * 2 ^ count.bits.toNat) := by
  intro signedness
  have computed : value <<< count = ofInt signedness
      (value.readAs signedness * 2 ^ (count.readAs signedness % 2 ^ 64).toNat) :=
    BinaryOp.result_eq_ofInt .shiftLeft rfl
  rw [computed, toNat_readAs_emod]

theorem toNat_bits_shiftLeft (value count : Value) :
    (value <<< count).bits.toNat = value.bits.toNat * 2 ^ count.bits.toNat % 2 ^ 64 := by
  change (value.bits <<< shiftPlaces count.bits).toNat = _
  rw [shiftLeft_shiftPlaces, BitVec.toNat_shiftLeft, Nat.shiftLeft_eq]

theorem iterate_shiftLeftOnce (signedness : Signedness) (number : Int) (places : Nat) :
    shiftLeftOnce^[places] (ofInt signedness number) = ofInt signedness (number * 2 ^ places) := by
  induction places with
  | zero => rw [Function.iterate_zero_apply, pow_zero, Int.mul_one]
  | succ places ih =>
      rw [Function.iterate_succ_apply', ih, shiftLeftOnce, shiftLeft_ofInt]
      change ofInt (signedness.join .unsigned) (number * 2 ^ places * 2 ^ 1) = _
      rw [Signedness.join_unsigned, Int.mul_assoc, ← pow_add]

theorem shiftLeft_shiftLeft (value : Value) {one other : Value}
    (bounded : one.bits.toNat + other.bits.toNat < 2 ^ 64) :
    value <<< one <<< other = value <<< (one + other) := by
  have places : (one + other).bits.toNat = one.bits.toNat + other.bits.toNat :=
    BitVec.toNat_add_of_lt bounded
  have signedness : (one + other).signedness = one.signedness.join other.signedness := rfl
  rw [← ofInt_payload value, shiftLeft_ofInt, shiftLeft_ofInt, shiftLeft_ofInt, places, signedness,
    Signedness.join_assoc, Int.mul_assoc, ← pow_add]

theorem shiftRight_eq_ofInt (value count : Value) :
    let signedness := value.signedness.join count.signedness
    value >>> count = ofInt signedness (value.readAs signedness / 2 ^ count.bits.toNat) := by
  intro signedness
  have computed : value >>> count = ofInt signedness
      (value.readAs signedness / 2 ^ (count.readAs signedness % 2 ^ 64).toNat) :=
    BinaryOp.result_eq_ofInt .shiftRight rfl
  rw [computed, toNat_readAs_emod]

/-- Shifting to the right a number that the signedness holds, by a count that does
not change the signedness. -/
theorem shiftRight_ofInt {signedness : Signedness} {number : Int}
    (held : signedness.Holds number) {count : Value}
    (absorbed : signedness.join count.signedness = signedness) :
    ofInt signedness number >>> count = ofInt signedness (number / 2 ^ count.bits.toNat) := by
  have computed : ofInt signedness number >>> count =
      ofInt (signedness.join count.signedness)
        ((ofInt signedness number).readAs (signedness.join count.signedness) /
          2 ^ count.bits.toNat) :=
    shiftRight_eq_ofInt (ofInt signedness number) count
  have read : (ofInt signedness number).readAs signedness = number :=
    payload_ofInt_of_holds held
  rw [computed, absorbed, read]

theorem iterate_shiftRightOnce {signedness : Signedness} {number : Int}
    (held : signedness.Holds number) (places : Nat) :
    shiftRightOnce^[places] (ofInt signedness number) =
      ofInt signedness (number / 2 ^ places) := by
  induction places with
  | zero => rw [Function.iterate_zero_apply, pow_zero, Int.ediv_one]
  | succ places ih =>
      have once : ofInt signedness (number / 2 ^ places) >>> ofInt .unsigned 1 =
          ofInt signedness (number / 2 ^ places / 2 ^ 1) :=
        shiftRight_ofInt (held.ediv_two_pow places) signedness.join_unsigned
      rw [Function.iterate_succ_apply', ih, shiftRightOnce, once, Numeral.ediv_two_pow_add]

theorem shiftRight_shiftRight (value : Value) {one other : Value}
    (bounded : one.bits.toNat + other.bits.toNat < 2 ^ 64)
    (sameKind : other.signedness = .unsigned ∨ value.signedness = .signed ∨
      one.signedness = .signed) :
    value >>> one >>> other = value >>> (one + other) := by
  have places : (one + other).bits.toNat = one.bits.toNat + other.bits.toNat :=
    BitVec.toNat_add_of_lt bounded
  have absorbed : (value.signedness.join one.signedness).join other.signedness =
      value.signedness.join one.signedness := by
    rcases sameKind with unsigned | signed
    · rw [unsigned, Signedness.join_unsigned]
    · rw [(Signedness.join_eq_signed_iff _ _).mpr signed]
      rfl
  have signedness : value.signedness.join (one + other).signedness =
      value.signedness.join one.signedness := by
    rw [← absorbed]
    exact (Signedness.join_assoc _ _ _).symm
  have held := (readAs_holds (value.signedness.join one.signedness) value).ediv_two_pow
    one.bits.toNat
  rw [shiftRight_eq_ofInt value one, shiftRight_ofInt held absorbed,
    shiftRight_eq_ofInt value (one + other), signedness, places, Numeral.ediv_two_pow_add]

/-! ### Every count -/

/-- A shift moves all the places that the pattern of its count names, as if it
were made place by place, and cutting the count to 64 makes no difference. Two
shifts are one by the sum of the counts if that is no larger than a pattern; to
the right they must also both repeat the top bit or both not. -/
theorem shift_law (value : Value) :
    (∀ count : Value,
        let signedness := value.signedness.join count.signedness
        let places := count.bits.toNat
        let number := value.readAs signedness
        (signedness = .signed ↔ value.signedness = .signed ∨ count.signedness = .signed) ∧
          ((value <<< count).signedness = signedness ∧
            (value <<< count).bits.toNat = value.bits.toNat * 2 ^ places % 2 ^ 64 ∧
            value <<< count = ofInt signedness (number * 2 ^ min places 64) ∧
            value <<< count = shiftLeftOnce^[places] (value.reinterpret signedness)) ∧
          ((value >>> count).signedness = signedness ∧
            (value >>> count).payload = number / 2 ^ places ∧
            value >>> count = ofInt signedness (number / 2 ^ min places 64) ∧
            value >>> count = shiftRightOnce^[places] (value.reinterpret signedness))) ∧
      ∀ one other : Value, one.bits.toNat + other.bits.toNat < 2 ^ 64 →
        value <<< one <<< other = value <<< (one + other) ∧
          (other.signedness = .unsigned ∨ value.signedness = .signed ∨
              one.signedness = .signed →
            value >>> one >>> other = value >>> (one + other)) := by
  refine ⟨fun count => ?_, fun one other bounded => ?_⟩
  · intro signedness places number
    have held : signedness.Holds number := readAs_holds signedness value
    have read : ofInt signedness number = value.reinterpret signedness :=
      ofInt_readAs signedness value
    have left : value <<< count = ofInt signedness (number * 2 ^ places) :=
      shiftLeft_eq_ofInt value count
    have right : value >>> count = ofInt signedness (number / 2 ^ places) :=
      shiftRight_eq_ofInt value count
    refine ⟨Signedness.join_eq_signed_iff _ _, ⟨rfl, toNat_bits_shiftLeft value count, ?_, ?_⟩,
      ⟨rfl, ?_, ?_, ?_⟩⟩
    · have cut : BitVec.ofInt 64 (number * 2 ^ min places 64) =
          BitVec.ofInt 64 (number * 2 ^ places) := by
        rw [Word.ofInt_mul_two_pow, Word.ofInt_mul_two_pow]
        exact shiftLeft_shiftPlaces (BitVec.ofInt 64 number) count.bits
      rw [left]
      exact congrArg (mk signedness) cut.symm
    · rw [left, ← read, iterate_shiftLeftOnce]
    · rw [right, payload_ofInt_of_holds (held.ediv_two_pow places)]
    · rw [right]
      exact congrArg (ofInt signedness)
        (payload_ediv_two_pow_min (value.reinterpret signedness) places).symm
    · rw [right, ← read, iterate_shiftRightOnce held]
  · exact ⟨shiftLeft_shiftLeft value bounded, shiftRight_shiftRight value bounded⟩

/-- A signed count in front of one that leaves nothing but the sign. -/
theorem shift_law_of_mixed_counts :
    let value := ofInt .unsigned (-6)
    let one := ofInt .signed 1
    let other := ofInt .unsigned 70
    one.bits.toNat + other.bits.toNat < 2 ^ 64 ∧
      (other.signedness = .unsigned ∨ value.signedness = .signed ∨ one.signedness = .signed) ∧
      value <<< one <<< other = value <<< (one + other) ∧
      value >>> one >>> other = value >>> (one + other) ∧
      value >>> (one + other) = ofInt .signed (-1) := by
  have composed := (shift_law (ofInt .unsigned (-6))).2 (ofInt .signed 1) (ofInt .unsigned 70)
    (by decide)
  exact ⟨by decide, by decide, composed.1, composed.2 (by decide), by decide⟩

end Value

section

variable (number : Int) {divisor : Int} (positive : 0 < divisor)

include positive

/-- Only quotients of negative numbers that leave a remainder are rounded up. -/
theorem Numeral.tdiv_of_pos :
    number.tdiv divisor =
      if 0 ≤ number ∨ number % divisor = 0 then number / divisor else number / divisor + 1 := by
  simp only [Int.tdiv_eq_ediv, Int.dvd_iff_emod_eq_zero, Int.sign_eq_one_of_pos positive]
  split
  · rw [Int.add_zero]
  · rfl

theorem Numeral.tmod_of_pos :
    number.tmod divisor =
      if 0 ≤ number ∨ number % divisor = 0 then number % divisor
      else number % divisor - divisor := by
  simp only [Int.tmod_eq_emod, Int.dvd_iff_emod_eq_zero]
  split
  · rw [Int.natCast_zero, Int.sub_zero]
  · rw [Int.natAbs_of_nonneg positive.le]

end

/-- Signed words have one place less for the powers of two. -/
theorem Signedness.holds_two_pow {signedness : Signedness} {places : Nat}
    (inside : places ≤ 62 ∨ places = 63 ∧ signedness = .unsigned) :
    signedness.Holds (2 ^ places) := by
  have positive := Numeral.two_pow_pos places
  cases signedness with
  | unsigned =>
      have below : (2 : Int) ^ places < 2 ^ 64 :=
        Int.pow_lt_pow_of_lt (by decide) (by omega)
      exact ⟨positive.le, below⟩
  | signed =>
      have few : places < 63 := by
        rcases inside with few | ⟨_, unsigned⟩
        · omega
        · cases unsigned
      have below : (2 : Int) ^ places < 2 ^ 63 := Int.pow_lt_pow_of_lt (by decide) few
      constructor <;> omega

namespace Value

theorem power_two (count : Value) :
    (ofInt .unsigned 2).power count = ofInt count.signedness (2 ^ count.low32) := by
  have signedness : Signedness.unsigned.join count.signedness = count.signedness := by
    rw [Signedness.join_comm, Signedness.join_unsigned]
  have bits : ((ofInt .unsigned 2).power count).bits = BitVec.ofInt 64 (2 ^ count.low32) := by
    rw [bits_power, Word.ofInt_pow]
    rfl
  exact congrArg₂ mk signedness bits

theorem shiftLeft_eq_mul_power (value : Value) {count : Value}
    (few : count.bits.toNat < 2 ^ 32) :
    value <<< count = value * (ofInt .unsigned 2).power count := by
  have places : count.low32 = count.bits.toNat := by
    rw [low32, BitVec.toNat_setWidth, Nat.mod_eq_of_lt few]
  rw [← ofInt_payload value, shiftLeft_ofInt, power_two, ofInt_mul, places]

/-- The places below a power of two hold the remainder by it. -/
theorem and_two_pow_sub_one (value : Value) (places : Nat) :
    value &&& (ofInt value.signedness (2 ^ places) - ofInt .unsigned 1) =
      ofInt value.signedness (value.payload % 2 ^ places) := by
  have masked := combine_ofInt (fun _ => Word.ofInt_land) value.signedness
    (value.signedness.join .unsigned) value.payload (2 ^ places - 1)
  rw [ofInt_payload, Signedness.join_unsigned, Signedness.join_self,
    Numeral.land_two_pow_sub_one] at masked
  rw [ofInt_sub, Signedness.join_unsigned]
  exact masked

section

variable {places : Nat} (value : Value) (inside : places < 64)

include inside

theorem shiftRight_natCast :
    value >>> ofInt .unsigned places =
      ofInt value.signedness (value.payload / 2 ^ places) := by
  have absorbed : value.signedness.join (ofInt .unsigned places).signedness = value.signedness :=
    Signedness.join_unsigned value.signedness
  have count : (ofInt .unsigned places).bits.toNat = places := toNat_bits_ofInt _ (by omega)
  have shifted := shiftRight_ofInt value.payload_holds absorbed
  rw [ofInt_payload, count] at shifted
  exact shifted

theorem shiftRight_shiftLeft_add_and :
    (value >>> ofInt .unsigned places <<< ofInt .unsigned places) +
        (value &&& (ofInt value.signedness (2 ^ places) - ofInt .unsigned 1)) = value := by
  have count : (ofInt .unsigned places).bits.toNat = places := toNat_bits_ofInt _ (by omega)
  have signedness : (value.signedness.join .unsigned).join value.signedness =
      value.signedness := by
    rw [Signedness.join_unsigned, Signedness.join_self]
  rw [shiftRight_natCast value inside, and_two_pow_sub_one, shiftLeft_ofInt, count,
    ofInt_add, Int.ediv_mul_add_emod]
  exact (congrArg (ofInt · value.payload) signedness).trans (ofInt_payload value)

end

theorem divide_remainder_ofInt (value : Value) {divisor : Int} (nonzero : divisor ≠ 0)
    (held : value.signedness.Holds divisor) :
    value.divide? (ofInt value.signedness divisor) =
        some (ofInt value.signedness (value.payload.tdiv divisor)) ∧
      value.remainder? (ofInt value.signedness divisor) =
        some (ofInt value.signedness (value.payload.tmod divisor)) := by
  have payload : (ofInt value.signedness divisor).payload = divisor := payload_ofInt_of_holds held
  have nonzeroPayload : (ofInt value.signedness divisor).payload ≠ 0 := by rwa [payload]
  have quotient := (BinaryOp.divide.gives_of_ne_zero value nonzeroPayload).1
  have remainder := (BinaryOp.remainder.gives_of_ne_zero value nonzeroPayload).1
  have signedness : value.signedness.join (ofInt value.signedness divisor).signedness =
      value.signedness := Signedness.join_self _
  have read : (ofInt value.signedness divisor).readAs value.signedness = divisor := payload
  rw [signedness, read] at quotient remainder
  exact ⟨quotient, remainder⟩

/-- Shifts and masks do what products, quotients and remainders by powers of two
do. Counts below `2 ^ 32` are exponents as they are. Shifting to the right and
masking divide a value that is not negative, or that is a multiple; the quotient
of any other is larger by one, and its remainder is smaller by the power. -/
theorem powers_of_two_law (value : Value) :
    (∀ count : Value, count.bits.toNat < 2 ^ 32 →
        value <<< count = value * (ofInt .unsigned 2).power count) ∧
      ∀ places : Nat, places ≤ 62 ∨ places = 63 ∧ value.signedness = .unsigned →
        let count := ofInt .unsigned places
        let power := ofInt value.signedness (2 ^ places)
        let low := value &&& (power - ofInt .unsigned 1)
        power.payload = 2 ^ places ∧
          (value >>> count <<< count) + low = value ∧
          if 0 ≤ value.payload ∨ low.payload = 0 then
            value.divide? power = some (value >>> count) ∧ value.remainder? power = some low
          else
            value.divide? power = some (value >>> count + ofInt .unsigned 1) ∧
              value.remainder? power = some (low - power) := by
  refine ⟨fun count few => shiftLeft_eq_mul_power value few, ?_⟩
  intro places few count power low
  have inside : places < 64 := by omega
  have positive := Numeral.two_pow_pos places
  have held := Signedness.holds_two_pow few
  have shifted : value >>> count = ofInt value.signedness (value.payload / 2 ^ places) :=
    shiftRight_natCast value inside
  have masked : low = ofInt value.signedness (value.payload % 2 ^ places) :=
    and_two_pow_sub_one value places
  have lowPayload : low.payload = value.payload % 2 ^ places := by
    have remains := Int.emod_nonneg value.payload positive.ne'
    have below := Int.emod_lt_of_pos value.payload positive
    rw [masked]
    exact payload_ofInt_of_holds (held.of_between (.inl ⟨remains, below.le⟩))
  obtain ⟨quotient, remainder⟩ := divide_remainder_ofInt value positive.ne' held
  rw [Numeral.tdiv_of_pos value.payload positive, ← lowPayload] at quotient
  rw [Numeral.tmod_of_pos value.payload positive, ← lowPayload] at remainder
  refine ⟨payload_ofInt_of_holds held, shiftRight_shiftLeft_add_and value inside, ?_⟩
  split
  · rename_i even
    rw [if_pos even, ← shifted] at quotient
    rw [if_pos even, lowPayload, ← masked] at remainder
    exact ⟨quotient, remainder⟩
  · rename_i uneven
    have larger : value >>> count + ofInt .unsigned 1 =
        ofInt value.signedness (value.payload / 2 ^ places + 1) := by
      rw [shifted, ofInt_add, Signedness.join_unsigned]
    have smaller : low - power =
        ofInt value.signedness (value.payload % 2 ^ places - 2 ^ places) := by
      rw [masked, ofInt_sub, Signedness.join_self]
    rw [if_neg uneven, ← larger] at quotient
    rw [if_neg uneven, lowPayload, ← smaller] at remainder
    exact ⟨quotient, remainder⟩

/-- A negative number that is no multiple, and a signed count. -/
theorem powers_of_two_law_of_negative_dividend :
    let value := ofInt .signed (-7)
    let count := ofInt .signed 62
    let power := ofInt value.signedness (2 ^ 2)
    let low := value &&& (power - ofInt .unsigned 1)
    count.bits.toNat < 2 ^ 32 ∧
      value <<< count = value * (ofInt .unsigned 2).power count ∧
      ¬ (0 ≤ value.payload ∨ low.payload = 0) ∧
      (value >>> ofInt .unsigned 2 <<< ofInt .unsigned 2) + low = value ∧
      value.divide? power = some (ofInt .signed (-1)) ∧
      value.remainder? power = some (ofInt .signed (-3)) := by
  intro value count power low
  have law := powers_of_two_law value
  have uneven : ¬ (0 ≤ value.payload ∨ low.payload = 0) := by decide
  obtain ⟨_, whole, divided⟩ := law.2 2 (.inl (by decide))
  rw [if_neg uneven] at divided
  obtain ⟨quotient, remainder⟩ := divided
  refine ⟨by decide, law.1 count (by decide), uneven, whole, quotient.trans ?_,
    remainder.trans ?_⟩
  · decide
  · decide

end Value

end WordCalc
