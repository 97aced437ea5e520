/-!
Numerals: digits in a base, and the numbers they write.

Digits are ASCII, and those above nine are letters of either case. Reading puts
the first digit in the highest place. Writing is `Nat.toDigits`, which has
lower case letters and no needless zeros. The lemmas say that reading is
indifferent to leading zeros and takes back what was written.
-/

namespace WordCalc.Numeral

/-- The number a digit stands for, if the character is a digit of any base up
to sixteen. -/
def digitValue? (c : Char) : Option Nat :=
  if c.isDigit then some (c.toNat - 48)
  else if 'a' ≤ c ∧ c ≤ 'f' then some (c.toNat - 87)
  else if 'A' ≤ c ∧ c ≤ 'F' then some (c.toNat - 55)
  else none

def isDigit (base : Nat) (c : Char) : Bool :=
  (digitValue? c).any (· < base)

def value (base : Nat) (digits : List Char) : Nat :=
  digits.foldl (fun number digit => number * base + (digitValue? digit).getD 0) 0

/-- The digits without leading zeros, or a single zero if nothing else is left. -/
def significant (digits : List Char) : List Char :=
  match digits.dropWhile (· == '0') with
  | [] => ['0']
  | first :: rest => first :: rest

def decimal (number : Int) : List Char :=
  let digits := Nat.toDigits 10 number.natAbs
  if number < 0 then '-' :: digits else digits

@[simp] theorem value_nil (base : Nat) : value base [] = 0 := rfl

theorem value_append_singleton (base : Nat) (digits : List Char) (digit : Char) :
    value base (digits ++ [digit]) =
      value base digits * base + (digitValue? digit).getD 0 := by
  simp [value]

theorem value_cons_zero (base : Nat) (digits : List Char) :
    value base ('0' :: digits) = value base digits := by
  simp [value, digitValue?, Char.isDigit]

theorem value_dropWhile_zero (base : Nat) (digits : List Char) :
    value base (digits.dropWhile (· == '0')) = value base digits := by
  induction digits with
  | nil => rfl
  | cons first rest ih =>
      by_cases zero : first = '0'
      · subst zero
        rw [List.dropWhile_cons_of_pos (by simp), ih, value_cons_zero]
      · rw [List.dropWhile_cons_of_neg (by simpa using zero)]

theorem value_significant (base : Nat) (digits : List Char) :
    value base (significant digits) = value base digits := by
  rw [← value_dropWhile_zero base digits, significant]
  split
  · rename_i none
    rw [none, value_cons_zero]
  · rename_i some
    rw [some]

/-- The characters that writing uses are digits with the number they stand for. -/
theorem digitValue?_digitChar {digit : Nat} (small : digit < 16) :
    digitValue? digit.digitChar = some digit := by
  have every : ∀ digit : Fin 16, digitValue? digit.val.digitChar = some digit.val := by
    decide
  exact every ⟨digit, small⟩

theorem value_toDigits {base : Nat} (two : 2 ≤ base) (sixteen : base ≤ 16) (number : Nat) :
    value base (Nat.toDigits base number) = number := by
  induction number using Nat.strongRecOn with
  | ind number ih =>
      by_cases small : number < base
      · rw [Nat.toDigits_of_lt_base small]
        simp [value, digitValue?_digitChar (Nat.lt_of_lt_of_le small sixteen)]
      · have large : base ≤ number := Nat.le_of_not_lt small
        have digit : number % base < base := Nat.mod_lt _ (by omega)
        rw [Nat.toDigits_of_base_le (by omega) large, value_append_singleton,
          ih (number / base) (Nat.div_lt_self (by omega) (by omega)),
          digitValue?_digitChar (by omega), Option.getD_some, Nat.mul_comm]
        exact Nat.div_add_mod number base

end WordCalc.Numeral
