import Mathlib.Data.Int.ModEq
import Mathlib.Data.Set.Function
import WordCalc.Proofs.Wrapping

/-!
Words as residues of integers.

For either signedness, wrapping takes the integers onto the words, and takes two
of them to the same word exactly if they are congruent modulo `2 ^ 64`. The word
holds the number that masking and a test of the highest place make of the
integer. Reading a word with the other signedness goes from the residue in one
range to the residue in the other, and back.
-/

namespace WordCalc

namespace Numeral

/-- Only the highest place of a number below `2 ^ (place + 1)` is left by a mask
of this one place, so the test of it compares the number with `2 ^ place`. -/
theorem land_two_pow_ne_zero_iff {number : Int} {place : Nat} (nonnegative : 0 ≤ number)
    (below : number < 2 ^ (place + 1)) :
    number.land (2 ^ place) ≠ 0 ↔ 2 ^ place ≤ number := by
  obtain ⟨number, rfl⟩ := Int.eq_ofNat_of_zero_le nonnegative
  have small : number < 2 ^ (place + 1) := by exact_mod_cast below
  have power : ((2 : Int) ^ place) = ((2 ^ place : Nat) : Int) := by norm_cast
  rw [power]
  change ((number &&& 2 ^ place : Nat) : Int) ≠ 0 ↔ _
  rw [Nat.and_two_pow, Int.ofNat_le, Ne, Int.natCast_eq_zero]
  by_cases large : 2 ^ place ≤ number
  · have isSet : number.testBit place = true :=
      Nat.testBit_of_two_pow_le_and_two_pow_add_one_gt large small
    simp [isSet, large]
  · have isClear : number.testBit place = false :=
      Nat.testBit_eq_false_of_lt (Nat.lt_of_not_le large)
    simp [isClear, large]

end Numeral

namespace Signedness

/-- The number that a word of the signedness keeps of an integer: its lowest 64
places, and `2 ^ 64` less if the word is signed and the highest of them is set. -/
def masked (signedness : Signedness) (number : Int) : Int :=
  let low := number.land (2 ^ 64 - 1)
  match signedness with
  | .unsigned => low
  | .signed => if low.land (2 ^ 63) ≠ 0 then low - 2 ^ 64 else low

def words (signedness : Signedness) : Set Value :=
  { value | value.signedness = signedness }

end Signedness

namespace Value

theorem payload_ofInt_eq_masked (signedness : Signedness) (number : Int) :
    (ofInt signedness number).payload = signedness.masked number := by
  unfold Signedness.masked
  rw [Numeral.land_two_pow_sub_one]
  cases signedness with
  | unsigned => exact payload_ofInt_unsigned number
  | signed =>
      have nonnegative : 0 ≤ number % 2 ^ 64 := Int.emod_nonneg _ (by decide)
      have below : number % 2 ^ 64 < 2 ^ 64 := Int.emod_lt_of_pos _ (by decide)
      have test := Numeral.land_two_pow_ne_zero_iff nonnegative below
      rw [payload_ofInt_signed, Int.bmod_def]
      simp only [test]
      split
      · rename_i low
        rw [if_neg (by omega)]
        norm_cast
      · rename_i high
        rw [if_pos (by omega)]
        norm_cast

theorem payload_emod (value : Value) : value.payload % 2 ^ 64 = value.bits.toNat :=
  readAs_emod value.signedness value

theorem payload_ofInt_modEq (signedness : Signedness) (number : Int) :
    (ofInt signedness number).payload ≡ number [ZMOD 2 ^ 64] := by
  rw [Int.ModEq, payload_emod, toNat_bits_ofInt_eq_emod]

theorem low32_ofInt (signedness : Signedness) (number : Int) :
    ((ofInt signedness number).low32 : Int) = number % 2 ^ 32 := by
  have divides : (2 : Int) ^ 32 ∣ 2 ^ 64 := pow_dvd_pow 2 (by decide)
  have congruent := (payload_ofInt_modEq signedness number).of_dvd divides
  rw [low32_eq_emod signedness]
  exact congruent

theorem ofInt_eq_ofInt_iff (one other : Signedness) (left right : Int) :
    ofInt one left = ofInt other right ↔ one = other ∧ left ≡ right [ZMOD 2 ^ 64] := by
  constructor
  · intro same
    have patterns : (ofInt one left).bits.toNat = (ofInt other right).bits.toNat :=
      congrArg (fun value => value.bits.toNat) same
    refine ⟨congrArg signedness same, ?_⟩
    rw [Int.ModEq, ← toNat_bits_ofInt_eq_emod one, ← toNat_bits_ofInt_eq_emod other, patterns]
  · intro parts
    obtain ⟨rfl, congruent⟩ := parts
    have patterns : ((ofInt one left).bits.toNat : Int) = (ofInt one right).bits.toNat := by
      rw [toNat_bits_ofInt_eq_emod, toNat_bits_ofInt_eq_emod]
      exact congruent
    exact congrArg (mk one) (BitVec.eq_of_toNat_eq (Int.ofNat.inj patterns))

/-- A cast builds the value anew from the number that it stands for. -/
theorem ofInt_payload_eq_reinterpret (signedness : Signedness) (value : Value) :
    ofInt signedness value.payload = value.reinterpret signedness :=
  congrArg (mk signedness) (bits_ofInt_payload signedness value)

theorem reinterpret_ofInt (one other : Signedness) (number : Int) :
    (ofInt one number).reinterpret other = ofInt other number := rfl

theorem reinterpret_eq_self_iff (signedness : Signedness) (value : Value) :
    value.reinterpret signedness = value ↔ value.signedness = signedness := by
  constructor
  · intro same
    exact (congrArg Value.signedness same).symm
  · intro isWord
    subst isWord
    rfl

theorem range_ofInt (signedness : Signedness) :
    Set.range (ofInt signedness) = signedness.words := by
  ext value
  constructor
  · intro built
    obtain ⟨number, rfl⟩ := built
    rfl
  · intro isWord
    refine ⟨value.payload, ?_⟩
    rw [ofInt_payload_eq_reinterpret]
    exact (reinterpret_eq_self_iff signedness value).mpr isWord

theorem reinterpret_invOn (one other : Signedness) :
    Set.InvOn (reinterpret one) (reinterpret other) one.words other.words := by
  constructor
  · intro value isOne
    exact (reinterpret_eq_self_iff one value).mpr isOne
  · intro value isOther
    exact (reinterpret_eq_self_iff other value).mpr isOther

theorem reinterpret_bijOn (one other : Signedness) :
    Set.BijOn (reinterpret other) one.words other.words :=
  (reinterpret_invOn one other).bijOn (fun _ _ => rfl) (fun _ _ => rfl)

structure IsResidueOf (value : Value) (number : Int) : Prop where
  masked : value.payload = value.signedness.masked number
  held : value.signedness.Holds value.payload
  congruent : value.payload ≡ number [ZMOD 2 ^ 64]
  pattern : (value.bits.toNat : Int) = number % 2 ^ 64
  low : (value.low32 : Int) = number % 2 ^ 32

theorem isResidueOf_ofInt (signedness : Signedness) (number : Int) :
    (ofInt signedness number).IsResidueOf number :=
  { masked := payload_ofInt_eq_masked signedness number
    held := payload_holds _
    congruent := payload_ofInt_modEq signedness number
    pattern := toNat_bits_ofInt_eq_emod signedness number
    low := low32_ofInt signedness number }

/-- The words of either signedness are the residues of the integers modulo
`2 ^ 64`: wrapping gives the residue in the range, identifies exactly the
congruent integers and reaches every word. Masks of what a word stands for give
its pattern and the low half of it. A word cast to a signedness is the residue of
the same integers there; casts keep the pattern, change no word of the signedness
itself, and go back and forth between the words of the two without loss. -/
theorem words_are_residues :
    (∀ signedness number, (ofInt signedness number).IsResidueOf number) ∧
      (∀ one other left right,
        ofInt one left = ofInt other right ↔ one = other ∧ left ≡ right [ZMOD 2 ^ 64]) ∧
      (∀ signedness, Set.range (ofInt signedness) = Signedness.words signedness) ∧
      (∀ value : Value,
        (value.bits.toNat : Int) = value.payload.land (2 ^ 64 - 1) ∧
          (value.low32 : Int) = value.payload.land (2 ^ 32 - 1)) ∧
      (∀ one other number,
        ofInt other (ofInt one number).payload = ofInt other number ∧
          (ofInt one number).reinterpret other = ofInt other number) ∧
      (∀ signedness value,
        reinterpret signedness value = ofInt signedness value.payload ∧
          (reinterpret signedness value).bits = value.bits ∧
          (reinterpret signedness value = value ↔ value.signedness = signedness)) ∧
      ∀ one other,
        Set.InvOn (reinterpret one) (reinterpret other) one.words other.words ∧
          Set.BijOn (reinterpret other) one.words other.words := by
  refine ⟨isResidueOf_ofInt, ofInt_eq_ofInt_iff, range_ofInt, ?_, ?_, ?_, ?_⟩
  · intro value
    rw [Numeral.land_two_pow_sub_one, Numeral.land_two_pow_sub_one]
    exact ⟨value.payload_emod.symm, low32_eq_emod value.signedness value⟩
  · intro one other number
    refine ⟨?_, reinterpret_ofInt one other number⟩
    rw [ofInt_payload_eq_reinterpret, reinterpret_ofInt]
  · intro signedness value
    exact ⟨(ofInt_payload_eq_reinterpret signedness value).symm, rfl,
      reinterpret_eq_self_iff signedness value⟩
  · intro one other
    exact ⟨reinterpret_invOn one other, reinterpret_bijOn one other⟩

-- The highest place is set from `2 ^ 63` on.
example : (ofInt .signed (2 ^ 63 - 1)).payload = 2 ^ 63 - 1 ∧
    (ofInt .signed (2 ^ 63)).payload = -2 ^ 63 := by
  decide

end Value

end WordCalc
