import WordCalc.Proofs.Word

/-!
Arithmetic in terms of single bits.

Where two words both have a bit, their sum carries one place up, and everywhere
else it has the bits of one or the other. Sums, differences and unions therefore
come down to bitwise operations and single carries, for words of any signedness.
What was added, subtracted or merged in can be taken out again; of the operand
that is left only the signedness may have changed.
-/

namespace WordCalc

/-- A sum is the places where exactly one number has a bit, and one place up the
places where both have one. -/
theorem Numeral.add_eq_xor_add_and (left right : Nat) :
    left + right = (left ^^^ right) + 2 * (left &&& right) := by
  induction left using Nat.strongRecOn generalizing right with
  | ind left ih =>
      rcases Nat.eq_zero_or_pos left with rfl | positive
      · rw [Nat.zero_xor, Nat.zero_and, Nat.zero_add, Nat.mul_zero, Nat.add_zero]
      · have halves := ih (left / 2) (Nat.div_lt_self positive Nat.one_lt_two) (right / 2)
        have lowestOne : (left ^^^ right) % 2 = 1 ↔ ¬ (left % 2 = 1 ↔ right % 2 = 1) :=
          Nat.xor_mod_two_eq_one
        have lowestBoth : (left &&& right) % 2 = 1 ↔ left % 2 = 1 ∧ right % 2 = 1 :=
          Nat.and_mod_two_eq_one
        rw [← Nat.xor_div_two, ← Nat.and_div_two] at halves
        omega

namespace Word

variable {width : Nat}

theorem add_eq_xor_add_and (left right : BitVec width) :
    left + right = (left ^^^ right) + (left &&& right) <<< 1 := by
  apply BitVec.eq_of_toNat_eq
  rw [BitVec.toNat_add, BitVec.toNat_add, BitVec.toNat_shiftLeft, BitVec.toNat_xor,
    BitVec.toNat_and, Nat.add_mod_mod, Nat.shiftLeft_eq, Nat.mul_comm, pow_one,
    ← Numeral.add_eq_xor_add_and]

/-- The places where one word has a bit and those where both have one lie apart, so
that their sum carries nothing. -/
theorem or_eq_xor_add_and (left right : BitVec width) :
    left ||| right = (left ^^^ right) + (left &&& right) := by
  have apart : (left ^^^ right) &&& (left &&& right) = BitVec.ofNat width 0 := by
    ext place inside
    simp only [BitVec.getElem_and, BitVec.getElem_xor, BitVec.getElem_zero]
    cases left[place] <;> cases right[place] <;> rfl
  have together : (left ^^^ right) ||| (left &&& right) = left ||| right := by
    ext place inside
    simp only [BitVec.getElem_or, BitVec.getElem_xor, BitVec.getElem_and]
    cases left[place] <;> cases right[place] <;> rfl
  rw [BitVec.add_eq_or_of_and_eq_zero _ _ apart, together]

theorem sub_eq_add_not_add_one (left right : BitVec width) :
    left - right = left + ~~~right + BitVec.ofNat width 1 := by
  rw [BitVec.sub_eq_add_neg, BitVec.neg_eq_not_add, BitVec.add_assoc]

theorem xor_xor_self (left right : BitVec width) : left ^^^ right ^^^ right = left := by
  rw [BitVec.xor_assoc, BitVec.xor_self, BitVec.xor_zero]

end Word

namespace Value

theorem sub_eq_add_complement (left right : Value) :
    left - right = left + ~~~right + ofInt .unsigned 1 :=
  congrArg₂ mk (Signedness.join_unsigned _).symm
    (Word.sub_eq_add_not_add_one left.bits right.bits)

theorem add_eq_xor_add_and (left right : Value) :
    left + right = (left ^^^ right) + ((left &&& right) <<< ofInt .unsigned 1) := by
  have signedness : left.signedness.join right.signedness =
      (left.signedness.join right.signedness).join
        ((left.signedness.join right.signedness).join .unsigned) := by
    rw [Signedness.join_unsigned, Signedness.join_self]
  exact congrArg₂ mk signedness (Word.add_eq_xor_add_and left.bits right.bits)

theorem or_eq_xor_add_and (left right : Value) :
    left ||| right = (left ^^^ right) + (left &&& right) :=
  congrArg₂ mk (Signedness.join_self _).symm (Word.or_eq_xor_add_and left.bits right.bits)

theorem complement_and (left right : Value) : ~~~(left &&& right) = ~~~left ||| ~~~right :=
  congrArg (mk _) BitVec.not_and

theorem complement_complement (value : Value) : ~~~(~~~value) = value :=
  congrArg (mk value.signedness) BitVec.not_not

/-- A value that a second operand was combined with, and then taken out again. -/
theorem reinterpret_join (left right : Value) :
    left.reinterpret (left.signedness.join right.signedness) =
      if left.signedness = .signed ∨ right.signedness = .signed then left.reinterpret .signed
      else left := by
  obtain ⟨signedness, bits⟩ := left
  cases signedness <;> cases right.signedness <;> rfl

/-- Differences, sums and unions of two values in terms of complements, of the
places where one value has a bit, and of the places where both have one. Taking
out what was put in leaves the first value, read as signed if either of the two
was signed. -/
theorem carry_identities (left right : Value) :
    left - right = left + ~~~right + ofInt .unsigned 1 ∧
      left + right = (left ^^^ right) + ((left &&& right) <<< ofInt .unsigned 1) ∧
      left ||| right = (left ^^^ right) + (left &&& right) ∧
      ~~~(left &&& right) = ~~~left ||| ~~~right ∧
      ~~~(~~~left) = left ∧
      let kept :=
        if left.signedness = .signed ∨ right.signedness = .signed then left.reinterpret .signed
        else left
      left ^^^ right ^^^ right = kept ∧
        left + right - right = kept ∧
        left - right + right = kept := by
  have signedness := Signedness.join_join_right left.signedness right.signedness
  refine ⟨sub_eq_add_complement left right, add_eq_xor_add_and left right,
    or_eq_xor_add_and left right, complement_and left right, complement_complement left, ?_⟩
  intro kept
  have read : left.reinterpret (left.signedness.join right.signedness) = kept :=
    reinterpret_join left right
  rw [← read]
  refine ⟨congrArg₂ mk signedness ?_, congrArg₂ mk signedness ?_, congrArg₂ mk signedness ?_⟩
  · exact Word.xor_xor_self left.bits right.bits
  · exact BitVec.add_sub_cancel left.bits right.bits
  · exact BitVec.sub_add_cancel left.bits right.bits

end Value

end WordCalc
