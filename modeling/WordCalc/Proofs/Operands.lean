import WordCalc.Machine

/-!
Operators and their operands.

An operator takes a fixed number of operands from the top of the stack and puts
its results in their place. Only clearing the stack goes deeper. One equation
says so for all operators, and what holds of every step of the machine is derived
from it.
-/

namespace WordCalc

namespace Operator

def operands : Operator → Nat
  | .unary _ => 1
  | .binary _ => 2
  | .printTop => 0
  | .printStack => 0
  | .setRadix => 1
  | .dropTop => 1
  | .duplicate => 1
  | .clear => 0
  | .swap => 2
  | .store => 2
  | .fetch => 1
  | .take => 1
  | .printRegister => 1
  | .quit => 0

/-- The results of an operator, the upper ones first, and the registers it
leaves. -/
structure Effect where
  results : List Value
  registers : Registers

/-- What an operator makes of its operands, the upper one first. Operators that
need none leave everything as it is. -/
def effect (operator : Operator) (registers : Registers) (operands : List Value) :
    Except Fault Effect :=
  match operator, operands with
  | .unary operator, [operand] => .ok ⟨[operator.apply operand], registers⟩
  | .binary operator, [right, left] =>
      match operator.apply? left right with
      | some result => .ok ⟨[result], registers⟩
      | none => .error .zeroDivisor
  | .setRadix, [value] =>
      match Radix.ofValue? value with
      | some _ => .ok ⟨[], registers⟩
      | none => .error (.badRadix value)
  | .dropTop, [_] => .ok ⟨[], registers⟩
  | .duplicate, [value] => .ok ⟨[value, value], registers⟩
  | .swap, [upper, lower] => .ok ⟨[lower, upper], registers⟩
  | .store, [id, value] => .ok ⟨[], registers.push id value⟩
  | .fetch, [id] => (registers.get id).map fun value => ⟨[value], registers⟩
  | .take, [id] => (registers.pop id).map fun (value, registers) => ⟨[value], registers⟩
  | .printRegister, [_] => .ok ⟨[], registers⟩
  | _, operands => .ok ⟨operands, registers⟩

def naming? (operator : Operator) (operands : List Value) : Option Radix :=
  match operator, operands with
  | .setRadix, [value] => Radix.ofValue? value
  | _, _ => none

end Operator

namespace State

def withEffect (state : State) (operator : Operator) (effect : Operator.Effect) : State where
  stack := effect.results ++ state.stack.drop operator.operands
  registers := effect.registers
  radix := (operator.naming? (state.stack.take operator.operands)).getD state.radix

theorem afterOperator_of_short {state : State} {operator : Operator}
    (short : state.stack.length < operator.operands) :
    state.afterOperator operator = .error .emptyStack := by
  obtain ⟨stack, registers, radix⟩ := state
  have atMostTwo : operator.operands ≤ 2 := by
    cases operator <;> simp [Operator.operands]
  rcases stack with _ | ⟨upper, _ | ⟨lower, rest⟩⟩
  · cases operator with
    | printTop | printStack | clear | quit => exact absurd short (Nat.not_lt_zero _)
    | _ => rfl
  · cases operator with
    | binary _ | swap | store => rfl
    | _ => simp [Operator.operands] at short
  · simp only [List.length_cons] at short
    omega

theorem exists_two {values : List Value} (two : 2 ≤ values.length) :
    ∃ upper lower rest, values = upper :: lower :: rest := by
  obtain ⟨upper, below, rfl⟩ := List.exists_cons_of_length_pos (Nat.lt_of_succ_lt two)
  obtain ⟨lower, rest, rfl⟩ := List.exists_cons_of_length_pos (Nat.lt_of_succ_lt_succ two)
  exact ⟨upper, lower, rest, rfl⟩

theorem afterOperator_of_enough {state : State} {operator : Operator}
    (notClear : operator ≠ .clear) (enough : operator.operands ≤ state.stack.length) :
    state.afterOperator operator =
      (operator.effect state.registers (state.stack.take operator.operands)).map
        (state.withEffect operator) := by
  obtain ⟨stack, registers, radix⟩ := state
  cases operator with
  | printTop | printStack | quit => rfl
  | clear => exact absurd rfl notClear
  | unary _ | dropTop | duplicate | printRegister =>
      obtain ⟨operand, rest, rfl⟩ := List.exists_cons_of_length_pos enough
      rfl
  | swap | store =>
      obtain ⟨upper, lower, rest, rfl⟩ := exists_two enough
      rfl
  | binary operator =>
      obtain ⟨right, left, rest, rfl⟩ := exists_two enough
      change (match operator.apply? left right with | some result => _ | none => _) =
        Except.map _ (match operator.apply? left right with | some result => _ | none => _)
      cases operator.apply? left right <;> rfl
  | setRadix =>
      obtain ⟨value, rest, rfl⟩ := List.exists_cons_of_length_pos enough
      cases named : Radix.ofValue? value with
      | none => simp [afterOperator, Operator.effect, Operator.operands, named, Except.map]
      | some radix =>
          simp [afterOperator, Operator.effect, Operator.operands, named, Except.map, withEffect,
            Operator.naming?]
  | fetch =>
      obtain ⟨id, rest, rfl⟩ := List.exists_cons_of_length_pos enough
      change Except.map _ (registers.get id) = Except.map _ (Except.map _ (registers.get id))
      cases registers.get id <;> rfl
  | take =>
      obtain ⟨id, rest, rfl⟩ := List.exists_cons_of_length_pos enough
      change Except.map _ (registers.pop id) = Except.map _ (Except.map _ (registers.pop id))
      cases registers.pop id <;> rfl

end State

end WordCalc
