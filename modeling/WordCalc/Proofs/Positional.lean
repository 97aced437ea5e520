import Mathlib.Data.Nat.Digits.Lemmas
import WordCalc.Numeral

/-!
Numerals as positional notation has them.

A character is a digit for a number below the base if it is how that number is
written, in lower or in upper case. Digits write the number whose digits in the
base they are, the highest place first. `Numeral.isDigit` and `Numeral.value`
recognize exactly this.
-/

namespace WordCalc.Numeral

def IsDigitFor (base : Nat) (c : Char) (digit : Nat) : Prop :=
  digit < base ∧ (c = digit.digitChar ∨ c = digit.digitChar.toUpper)

/-- The digits, of which there is at least one, write the number. -/
def Writes (base : Nat) (digits : List Char) (number : Nat) : Prop :=
  digits ≠ [] ∧ ∃ places : List Nat,
    List.Forall₂ (IsDigitFor base) digits places ∧ number = Nat.ofDigits base places.reverse

private theorem digitValue?_of_written {digit : Nat} (small : digit < 16) {c : Char}
    (written : c = digit.digitChar ∨ c = digit.digitChar.toUpper) :
    digitValue? c = some digit := by
  have upper : ∀ digit : Fin 16, digitValue? digit.val.digitChar.toUpper = some digit.val := by
    decide
  rcases written with rfl | rfl
  · exact digitValue?_digitChar small
  · exact upper ⟨digit, small⟩

private theorem toNat_le_of_digitValue? {c : Char} {digit : Nat}
    (read : digitValue? c = some digit) : c.toNat ≤ 102 := by
  unfold digitValue? at read
  split at read
  · rename_i decimal
    have below : c.toNat ≤ 57 := (Char.isDigit_iff_toNat.mp decimal).2
    omega
  · split at read
    · rename_i lower
      exact lower.2
    · split at read
      · rename_i upper
        have below : c.toNat ≤ 70 := upper.2
        omega
      · cases read

private theorem written_of_digitValue? {c : Char} {digit : Nat}
    (read : digitValue? c = some digit) :
    digit < 16 ∧ (c = digit.digitChar ∨ c = digit.digitChar.toUpper) := by
  have written : ∀ code : Fin 103, ∀ digit ∈ digitValue? (Char.ofNat code.val),
      digit < 16 ∧
        (Char.ofNat code.val = digit.digitChar ∨
          Char.ofNat code.val = digit.digitChar.toUpper) := by
    decide
  have small := toNat_le_of_digitValue? read
  have same : Char.ofNat c.toNat = c := Char.ofNat_toNat c
  rw [← same] at read ⊢
  exact written ⟨c.toNat, by omega⟩ digit read

theorem isDigitFor_iff {base : Nat} (sixteen : base ≤ 16) (c : Char) (digit : Nat) :
    IsDigitFor base c digit ↔ digitValue? c = some digit ∧ digit < base := by
  constructor
  · intro isDigitFor
    obtain ⟨small, written⟩ := isDigitFor
    exact ⟨digitValue?_of_written (by omega) written, small⟩
  · intro both
    obtain ⟨read, small⟩ := both
    exact ⟨small, (written_of_digitValue? read).2⟩

theorem isDigit_iff (base : Nat) (c : Char) :
    isDigit base c = true ↔ ∃ digit, digitValue? c = some digit ∧ digit < base := by
  simp only [isDigit, Option.any_eq_true, decide_eq_true_eq]

theorem value_eq_ofDigits (base : Nat) (digits : List Char) :
    value base digits =
      Nat.ofDigits base (digits.map fun c => (digitValue? c).getD 0).reverse := by
  induction digits using List.reverseRecOn with
  | nil => rfl
  | append_singleton rest last ih =>
      rw [value_append_singleton, ih, List.map_append, List.reverse_append, List.map_singleton,
        List.reverse_singleton, List.singleton_append, Nat.ofDigits_cons]
      ring

/-! ### Whole numerals -/

private theorem places_of_digits {base : Nat} (sixteen : base ≤ 16) (digits : List Char)
    (places : List Nat) :
    List.Forall₂ (IsDigitFor base) digits places ↔
      (∀ c ∈ digits, isDigit base c = true) ∧
        places = digits.map fun c => (digitValue? c).getD 0 := by
  induction digits generalizing places with
  | nil =>
      rw [List.forall₂_nil_left_iff]
      simp
  | cons first rest ih =>
      rw [List.forall₂_cons_left_iff]
      constructor
      · intro parts
        obtain ⟨digit, later, isDigitFor, laterDigits, rfl⟩ := parts
        obtain ⟨read, small⟩ := (isDigitFor_iff sixteen first digit).mp isDigitFor
        obtain ⟨restDigits, rfl⟩ := (ih later).mp laterDigits
        constructor
        · intro c member
          rcases List.mem_cons.mp member with rfl | inRest
          · exact (isDigit_iff base c).mpr ⟨digit, read, small⟩
          · exact restDigits c inRest
        · rw [List.map_cons, read, Option.getD_some]
      · intro parts
        obtain ⟨allDigits, rfl⟩ := parts
        obtain ⟨digit, read, small⟩ :=
          (isDigit_iff base first).mp (allDigits first List.mem_cons_self)
        refine ⟨digit, rest.map fun c => (digitValue? c).getD 0, ?_, ?_, ?_⟩
        · exact (isDigitFor_iff sixteen first digit).mpr ⟨read, small⟩
        · exact (ih _).mpr ⟨fun c inRest => allDigits c (List.mem_cons_of_mem first inRest), rfl⟩
        · rw [List.map_cons, read, Option.getD_some]

/-- Digits of the base write one number, which is the one that is read. -/
theorem writes_iff {base : Nat} (sixteen : base ≤ 16) (digits : List Char) (number : Nat) :
    Writes base digits number ↔
      digits ≠ [] ∧ (∀ c ∈ digits, isDigit base c = true) ∧ number = value base digits := by
  unfold Writes
  constructor
  · intro writes
    obtain ⟨nonempty, places, digitsFor, rfl⟩ := writes
    obtain ⟨allDigits, rfl⟩ := (places_of_digits sixteen digits places).mp digitsFor
    exact ⟨nonempty, allDigits, (value_eq_ofDigits base digits).symm⟩
  · intro parts
    obtain ⟨nonempty, allDigits, rfl⟩ := parts
    exact ⟨nonempty, _, (places_of_digits sixteen digits _).mpr ⟨allDigits, rfl⟩,
      value_eq_ofDigits base digits⟩

theorem writes_toDigits {base : Nat} (two : 2 ≤ base) (sixteen : base ≤ 16) (number : Nat) :
    Writes base (Nat.toDigits base number) number := by
  have allDigits : ∀ c ∈ Nat.toDigits base number, isDigit base c = true := by
    induction number using Nat.strongRecOn with
    | ind number ih =>
        intro c member
        by_cases small : number < base
        · rw [Nat.toDigits_of_lt_base small, List.mem_singleton] at member
          rw [member]
          exact (isDigit_iff base _).mpr ⟨number, digitValue?_digitChar (by omega), small⟩
        · have last : number % base < base := Nat.mod_lt _ (by omega)
          rw [Nat.toDigits_of_base_le (by omega) (by omega), List.mem_append,
            List.mem_singleton] at member
          rcases member with earlier | rfl
          · exact ih (number / base) (Nat.div_lt_self (by omega) (by omega)) c earlier
          · exact (isDigit_iff base _).mpr
              ⟨number % base, digitValue?_digitChar (by omega), last⟩
  exact (writes_iff sixteen _ _).mpr
    ⟨Nat.toDigits_ne_nil, allDigits, (value_toDigits two sixteen number).symm⟩

private theorem zeros_are_digits {base : Nat} (two : 2 ≤ base) (count : Nat) :
    List.Forall₂ (IsDigitFor base) (List.replicate count '0') (List.replicate count 0) := by
  induction count with
  | zero => exact .nil
  | succ count ih =>
      have zero : IsDigitFor base '0' 0 := ⟨by omega, Or.inl rfl⟩
      exact .cons zero ih

theorem Writes.leftpad {base : Nat} (two : 2 ≤ base) {digits : List Char} {number : Nat}
    (writes : Writes base digits number) (width : Nat) :
    Writes base (digits.leftpad width '0') number := by
  obtain ⟨nonempty, places, digitsFor, rfl⟩ := writes
  refine ⟨?_, List.replicate (width - digits.length) 0 ++ places, ?_, ?_⟩
  · intro empty
    exact nonempty (List.append_eq_nil_iff.mp empty).2
  · exact List.rel_append (zeros_are_digits two _) digitsFor
  · rw [List.reverse_append, List.reverse_replicate, Nat.ofDigits_append_replicate_zero]

/-- The first digit behind the leading zeros is not a zero in any case. -/
private theorem first_significant {base : Nat} (sixteen : base ≤ 16) {digits : List Char}
    (allDigits : ∀ c ∈ digits, isDigit base c = true) {first : Char} {rest : List Char}
    (kept : digits.dropWhile (· == '0') = first :: rest) :
    ∃ digit, digitValue? first = some digit ∧ digit ≠ 0 := by
  have leading : first ≠ '0' := by
    have head := List.head?_dropWhile_not (· == '0') digits
    rw [kept] at head
    simpa using head
  have member : first ∈ digits := by
    apply (List.dropWhile_sublist (· == '0')).subset
    rw [kept]
    exact List.mem_cons_self
  obtain ⟨digit, read, small⟩ := (isDigit_iff _ first).mp (allDigits first member)
  refine ⟨digit, read, ?_⟩
  intro atZero
  subst atZero
  have zero := (isDigitFor_iff sixteen first 0).mpr ⟨read, small⟩
  rcases zero.2 with same | same
  · exact leading same
  · exact leading same

/-- More significant digits than `width` write a number of at least `base ^ width`. -/
theorem pow_le_value {base : Nat} (two : 2 ≤ base) (sixteen : base ≤ 16) {digits : List Char}
    (allDigits : ∀ c ∈ digits, isDigit base c = true) {width : Nat} (positive : 0 < width)
    (long : width < (significant digits).length) : base ^ width ≤ value base digits := by
  obtain ⟨extra, rfl⟩ : ∃ extra, base = extra + 2 := ⟨base - 2, by omega⟩
  rw [← value_dropWhile_zero, value_eq_ofDigits]
  unfold significant at long
  cases kept : digits.dropWhile (· == '0') with
  | nil =>
      rw [kept] at long
      change width < 1 at long
      omega
  | cons first rest =>
      rw [kept] at long
      obtain ⟨digit, read, nonzero⟩ := first_significant sixteen allDigits kept
      have last := Nat.pow_length_le_mul_ofDigits (b := extra)
        (l := ((first :: rest).map fun c => (digitValue? c).getD 0).reverse) (by simp)
        (by simpa [read] using nonzero)
      rw [List.length_reverse, List.length_map] at last
      have bound : (extra + 2) ^ (width + 1) ≤ (extra + 2) ^ (first :: rest).length :=
        Nat.pow_le_pow_right (by omega) long
      rw [Nat.pow_succ, Nat.mul_comm] at bound
      exact Nat.le_of_mul_le_mul_left (bound.trans last) (by omega)

end WordCalc.Numeral
