import WordCalc.Proofs.Expression
import WordCalc.Proofs.Wrapping

/-!
Totals of any number of values.

A sum, a product or a bitwise combination of many values can be bracketed in many
ways, and the values may come in any order. Partial results turn signed earlier
or later on the way, but all ways end with one value: the operators are
associative and commutative on values of mixed signedness, and an unsigned value
that changes nothing can be put in front.
-/

namespace WordCalc

inductive Bracketing
  | single (value : Value)
  | pair (left right : Bracketing)

namespace Bracketing

def values : Bracketing → List Value
  | .single value => [value]
  | .pair left right => left.values ++ right.values

def joinedBy (operator : BinaryOp) : Bracketing → Expression
  | .single value => .leaf value
  | .pair left right => .binary operator (left.joinedBy operator) (right.joinedBy operator)

end Bracketing

namespace Value

section

variable (onWords : BitVec 64 → BitVec 64 → BitVec 64)

instance combine_commutative [Std.Commutative onWords] :
    Std.Commutative (combine fun _ => onWords) where
  comm _ _ := congrArg₂ mk (Signedness.join_comm _ _) (Std.Commutative.comm _ _)

instance combine_associative [Std.Associative onWords] :
    Std.Associative (combine fun _ => onWords) where
  assoc _ _ _ := congrArg₂ mk (Signedness.join_assoc _ _ _) (Std.Associative.assoc _ _ _)

variable (neutral : BitVec 64)

/-- The values combined one after the other, beginning with an unsigned word. -/
def total (values : List Value) : Value :=
  values.foldl (combine fun _ => onWords) ⟨.unsigned, neutral⟩

theorem total_perm [Std.Associative onWords] [Std.Commutative onWords] {values others : List Value}
    (reordered : values.Perm others) :
    total onWords neutral values = total onWords neutral others :=
  reordered.foldl_op_eq

/-- What has turned signed stays signed. -/
private theorem signedness_foldl_combine (start : Value) (values : List Value) :
    (values.foldl (combine fun _ => onWords) start).signedness = .signed ↔
      start.signedness = .signed ∨ ∃ value ∈ values, value.signedness = .signed := by
  induction values generalizing start with
  | nil => simp
  | cons value rest ih =>
      have joined : (combine (fun _ => onWords) start value).signedness = .signed ↔
          start.signedness = .signed ∨ value.signedness = .signed :=
        Signedness.join_eq_signed_iff start.signedness value.signedness
      rw [List.foldl_cons, ih, joined, List.exists_mem_cons_iff, or_assoc]

theorem signedness_total (values : List Value) :
    (total onWords neutral values).signedness = .signed ↔
      ∃ value ∈ values, value.signedness = .signed := by
  rw [total, signedness_foldl_combine]
  simp

variable [Std.LawfulLeftIdentity onWords neutral]

theorem combine_neutral (value : Value) :
    combine (fun _ => onWords) ⟨.unsigned, neutral⟩ value = value :=
  congrArg₂ mk ((Signedness.join_comm _ _).trans (Signedness.join_unsigned _))
    (Std.LawfulLeftIdentity.left_id _)

theorem total_cons (first : Value) (rest : List Value) :
    total onWords neutral (first :: rest) = rest.foldl (combine fun _ => onWords) first := by
  rw [total, List.foldl_cons, combine_neutral]

theorem total_append [Std.Associative onWords] [Std.Commutative onWords]
    (values others : List Value) :
    total onWords neutral (values ++ others) =
      combine (fun _ => onWords) (total onWords neutral values)
        (total onWords neutral others) := by
  have unchanged : combine (fun _ => onWords) (total onWords neutral values)
      ⟨.unsigned, neutral⟩ = total onWords neutral values := by
    rw [(combine_commutative onWords).comm, combine_neutral]
  calc
    total onWords neutral (values ++ others)
    _ = others.foldl (combine fun _ => onWords) (total onWords neutral values) :=
      List.foldl_append
    _ = others.foldl (combine fun _ => onWords)
          (combine (fun _ => onWords) (total onWords neutral values) ⟨.unsigned, neutral⟩) := by
      rw [unchanged]
    _ = combine (fun _ => onWords) (total onWords neutral values)
          (total onWords neutral others) :=
      List.foldl_assoc

end

end Value

/-! ### Operators that are free of order -/

/-- The operator is computed on words, whatever the signedness, by an associative
and commutative operation with an identity, and agrees with the one on integers. -/
structure BinaryOp.OrderFree (operator : BinaryOp) (onWords : BitVec 64 → BitVec 64 → BitVec 64)
    (neutral : BitVec 64) : Prop where
  applies : ∀ left right : Value,
    operator.apply? left right = some (Value.combine (fun _ => onWords) left right)
  wraps : ∀ left right : Int,
    BitVec.ofInt 64 (operator.onIntegers left right) =
      onWords (BitVec.ofInt 64 left) (BitVec.ofInt 64 right)
  associative : Std.Associative onWords
  commutative : Std.Commutative onWords
  identity : Std.LawfulLeftIdentity onWords neutral

namespace BinaryOp

theorem exists_orderFree {operator : BinaryOp}
    (listed : operator ∈ [BinaryOp.add, .multiply, .and, .or, .xor]) :
    ∃ onWords neutral, operator.OrderFree onWords neutral := by
  simp only [List.mem_cons, List.not_mem_nil, or_false] at listed
  rcases listed with rfl | rfl | rfl | rfl | rfl
  · exact ⟨(· + ·), 0#64, fun _ _ => rfl, fun _ _ => BitVec.ofInt_add _ _,
      inferInstance, inferInstance, inferInstance⟩
  · exact ⟨(· * ·), 1#64, fun _ _ => rfl, fun _ _ => BitVec.ofInt_mul _ _,
      inferInstance, inferInstance, inferInstance⟩
  · exact ⟨(· &&& ·), BitVec.allOnes 64, fun _ _ => rfl, Word.ofInt_land,
      inferInstance, inferInstance, inferInstance⟩
  · exact ⟨(· ||| ·), 0#64, fun _ _ => rfl, Word.ofInt_lor,
      inferInstance, inferInstance, inferInstance⟩
  · exact ⟨(· ^^^ ·), 0#64, fun _ _ => rfl, Word.ofInt_xor,
      inferInstance, inferInstance, inferInstance⟩

variable {operator : BinaryOp} {onWords : BitVec 64 → BitVec 64 → BitVec 64}
  {neutral : BitVec 64}

theorem OrderFree.value?_joinedBy (orderFree : operator.OrderFree onWords neutral)
    (bracketing : Bracketing) :
    (bracketing.joinedBy operator).value? =
      some (Value.total onWords neutral bracketing.values) := by
  have := orderFree.associative
  have := orderFree.commutative
  have := orderFree.identity
  induction bracketing with
  | single value =>
      rw [Bracketing.values, Value.total_cons]
      rfl
  | pair left right ihLeft ihRight =>
      rw [Bracketing.joinedBy, Expression.value?_binary, ihLeft, ihRight, Option.bind_some,
        Option.bind_some, orderFree.applies, Bracketing.values, Value.total_append]

private theorem OrderFree.bits_foldl_combine (orderFree : operator.OrderFree onWords neutral)
    {start : Value} {number : Int} (same : start.bits = BitVec.ofInt 64 number)
    (values : List Value) :
    (values.foldl (Value.combine fun _ => onWords) start).bits =
      BitVec.ofInt 64
        ((values.map (Value.readAs .unsigned)).foldl operator.onIntegers number) := by
  induction values generalizing start number with
  | nil => exact same
  | cons value rest ih =>
      rw [List.foldl_cons, List.map_cons, List.foldl_cons]
      apply ih
      rw [orderFree.wraps, ← same, Value.bits_ofInt_readAs]
      rfl

theorem OrderFree.bits_total (orderFree : operator.OrderFree onWords neutral) (first : Value)
    (rest : List Value) :
    (Value.total onWords neutral (first :: rest)).bits =
      BitVec.ofInt 64
        ((rest.map (Value.readAs .unsigned)).foldl operator.onIntegers
          (first.readAs .unsigned)) := by
  have := orderFree.identity
  rw [Value.total_cons]
  exact orderFree.bits_foldl_combine (Value.bits_ofInt_readAs .unsigned first).symm rest

end BinaryOp

namespace Bracketing

/-- Of sums, of products and of bitwise combinations it does not matter in which
order the values come and how they are bracketed: from any state, the operations
put the same value on the stack. It is signed as soon as one of the values is,
and its pattern is that of the total of the patterns. -/
theorem order_immaterial {operator : BinaryOp}
    (listed : operator ∈ [BinaryOp.add, .multiply, .and, .or, .xor])
    (first : Value) (rest : List Value) :
    ∃ result : Value,
      (∀ bracketing : Bracketing, bracketing.values.Perm (first :: rest) →
        ∀ state : State,
          state.Reaches (bracketing.joinedBy operator).steps
            { state with stack := result :: state.stack }) ∧
      (result.signedness = .signed ↔ ∃ value ∈ first :: rest, value.signedness = .signed) ∧
      (result.bits.toNat : Int) =
        (rest.map (Value.readAs .unsigned)).foldl operator.onIntegers
          (first.readAs .unsigned) % 2 ^ 64 := by
  obtain ⟨onWords, neutral, orderFree⟩ := BinaryOp.exists_orderFree listed
  have := orderFree.associative
  have := orderFree.commutative
  refine ⟨Value.total onWords neutral (first :: rest), ?_,
    Value.signedness_total onWords neutral (first :: rest), ?_⟩
  · intro bracketing reordered state
    have found := orderFree.value?_joinedBy bracketing
    rw [Value.total_perm onWords neutral reordered] at found
    exact Expression.reaches_of_value found state
  · rw [orderFree.bits_total]
    exact Value.payload_ofInt_unsigned _

/-- Three factors, one of them signed, that come in two orders and are bracketed
once to the left and once to the right. -/
theorem order_immaterial_of_mixed_factors :
    let half := Value.ofInt .unsigned (2 ^ 63)
    let minusThree := Value.ofInt .signed (-3)
    let five := Value.ofInt .unsigned 5
    let leftward := pair (pair (single half) (single minusThree)) (single five)
    let rightward := pair (single five) (pair (single half) (single minusThree))
    leftward.values.Perm [half, minusThree, five] ∧
      rightward.values.Perm [half, minusThree, five] ∧
      ∃ result : Value,
        State.initial.Reaches (leftward.joinedBy .multiply).steps
            { State.initial with stack := [result] } ∧
          State.initial.Reaches (rightward.joinedBy .multiply).steps
            { State.initial with stack := [result] } ∧
          result.signedness = .signed ∧ (result.bits.toNat : Int) = 2 ^ 63 := by
  obtain ⟨result, reached, signed, total⟩ := @order_immaterial .multiply (by decide)
    (Value.ofInt .unsigned (2 ^ 63)) [Value.ofInt .signed (-3), Value.ofInt .unsigned 5]
  refine ⟨by decide, by decide, result, reached _ (by decide) _, reached _ (by decide) _,
    signed.mpr ⟨_, List.mem_cons_of_mem _ List.mem_cons_self, rfl⟩, ?_⟩
  rw [total]
  decide

end Bracketing

end WordCalc
