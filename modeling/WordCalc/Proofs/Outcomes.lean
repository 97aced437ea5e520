import WordCalc.Proofs.Expression
import WordCalc.Proofs.Mechanism
import WordCalc.Proofs.Operands

/-!
What every operation comes to.

An operation that finds too few values on the stack fails, whatever it is. One
that finds enough fails in three cases only: a zero divisor, a value that names
no radix, a register that holds nothing. In every other case it succeeds, and
the depth of the stack after it is known in advance.
-/

namespace WordCalc

namespace Operation

def need : Operation → Nat
  | .push _ => 0
  | .apply operator => operator.operands

def depthAfter (depth : Int) : Operation → Int
  | .push _ | .apply .duplicate => depth + 1
  | .apply (.unary _) | .apply .swap | .apply .fetch | .apply .take => depth
  | .apply .printTop | .apply .printStack | .apply .quit => depth
  | .apply (.binary _) | .apply .dropTop | .apply .setRadix | .apply .printRegister => depth - 1
  | .apply .store => depth - 2
  | .apply .clear => 0

end Operation

theorem Radix.ofValue?_eq_none_iff (value : Value) :
    Radix.ofValue? value = none ↔ value.low32 ∉ [2, 10, 16] := by
  constructor
  · intro unnamed
    have differs (radix : Radix) : radix.base ≠ value.low32 := by
      intro same
      rw [(ofValue?_eq_some_iff value radix).mpr same] at unnamed
      cases unnamed
    simp only [List.mem_cons, List.not_mem_nil, or_false, not_or]
    exact ⟨(differs .binary).symm, (differs .decimal).symm, (differs .hexadecimal).symm⟩
  · intro unnamed
    cases found : ofValue? value with
    | none => rfl
    | some radix =>
        rw [← (ofValue?_eq_some_iff value radix).mp found] at unnamed
        cases radix <;> exact absurd (by decide) unnamed

namespace State

/-- The ways in which an operation can fail in a state. -/
inductive Fails (state : State) : Operation → Fault → Prop
  | short {operation : Operation} :
      state.stack.length < operation.need → Fails state operation .emptyStack
  | zeroDivisor {operator : BinaryOp} {right left : Value} {rest : List Value} :
      operator = .divide ∨ operator = .remainder →
        state.stack = right :: left :: rest → right.payload = 0 →
          Fails state (.apply (.binary operator)) .zeroDivisor
  | badRadix {value : Value} {rest : List Value} :
      state.stack = value :: rest → value.low32 ∉ [2, 10, 16] →
        Fails state (.apply .setRadix) (.badRadix value)
  | emptyRegister {operator : Operator} {id : Value} {rest : List Value} :
      operator = .fetch ∨ operator = .take →
        state.stack = id :: rest → state.registers.contents id = [] →
          Fails state (.apply operator) (.emptyRegister id)

/-! ### Failures -/

private theorem fails_of_enough {state : State} {operator : Operator} {fault : Fault}
    (enough : operator.operands ≤ state.stack.length)
    (failed : state.afterOperator operator = .error fault) :
    state.Fails (.apply operator) fault := by
  obtain ⟨stack, registers, radix⟩ := state
  cases operator with
  | printTop | printStack | clear | quit => cases failed
  | unary _ | dropTop | duplicate | printRegister =>
      obtain ⟨value, rest, rfl⟩ := List.exists_cons_of_length_pos enough
      cases failed
  | swap | store =>
      obtain ⟨upper, lower, rest, rfl⟩ := exists_two enough
      cases failed
  | binary operator =>
      obtain ⟨right, left, rest, rfl⟩ := exists_two enough
      simp only [afterOperator] at failed
      cases found : operator.apply? left right with
      | some result =>
          rw [found] at failed
          cases failed
      | none =>
          rw [found] at failed
          cases failed
          obtain ⟨divides, zero⟩ := (operator.apply?_eq_none_iff left right).mp found
          exact .zeroDivisor divides rfl zero
  | setRadix =>
      obtain ⟨value, rest, rfl⟩ := List.exists_cons_of_length_pos enough
      simp only [afterOperator] at failed
      cases found : Radix.ofValue? value with
      | some named =>
          rw [found] at failed
          cases failed
      | none =>
          rw [found] at failed
          cases failed
          exact .badRadix rfl ((Radix.ofValue?_eq_none_iff value).mp found)
  | fetch =>
      obtain ⟨id, rest, rfl⟩ := List.exists_cons_of_length_pos enough
      simp only [afterOperator, Registers.get] at failed
      cases held : registers.contents id with
      | cons newest older =>
          rw [held] at failed
          cases failed
      | nil =>
          rw [held] at failed
          cases failed
          exact .emptyRegister (.inl rfl) rfl held
  | take =>
      obtain ⟨id, rest, rfl⟩ := List.exists_cons_of_length_pos enough
      simp only [afterOperator, Registers.pop] at failed
      cases held : registers.contents id with
      | cons newest older =>
          rw [held] at failed
          cases failed
      | nil =>
          rw [held] at failed
          cases failed
          exact .emptyRegister (.inr rfl) rfl held

theorem next_eq_error_iff (state : State) (operation : Operation) (fault : Fault) :
    state.next operation = .error fault ↔ state.Fails operation fault := by
  constructor
  · intro failed
    cases operation with
    | push value => cases failed
    | apply operator =>
        by_cases enough : operator.operands ≤ state.stack.length
        · exact fails_of_enough enough failed
        · have short : state.stack.length < operator.operands := Nat.lt_of_not_le enough
          rw [next, afterOperator_of_short short] at failed
          cases failed
          exact .short short
  · intro fails
    obtain ⟨stack, registers, radix⟩ := state
    cases fails with
    | @short operation short =>
        cases operation with
        | push value => exact absurd short (Nat.not_lt_zero _)
        | apply operator => exact afterOperator_of_short short
    | @zeroDivisor operator right left rest divides found zero =>
        obtain rfl : stack = right :: left :: rest := found
        have none := (operator.apply?_eq_none_iff left right).mpr ⟨divides, zero⟩
        simp only [next, afterOperator, none]
    | @badRadix value rest found unnamed =>
        obtain rfl : stack = value :: rest := found
        simp only [next, afterOperator, (Radix.ofValue?_eq_none_iff value).mpr unnamed]
    | @emptyRegister operator id rest looks found vacant =>
        obtain rfl : stack = id :: rest := found
        have none : registers.contents id = [] := vacant
        rcases looks with rfl | rfl
        · simp only [next, afterOperator, Registers.get, none, Except.map]
        · simp only [next, afterOperator, Registers.pop, none, Except.map]

private theorem depthAfter_add (depth more : Int) {operator : Operator}
    (notClear : operator ≠ .clear) :
    (Operation.apply operator).depthAfter (depth + more) =
      (Operation.apply operator).depthAfter depth + more := by
  cases operator with
  | clear => exact absurd rfl notClear
  | duplicate | binary _ | dropTop | setRadix | printRegister | store =>
      simp only [Operation.depthAfter]
      omega
  | _ => rfl

private theorem length_results {operator : Operator} {registers : Registers}
    {operands : List Value} {effect : Operator.Effect} (notClear : operator ≠ .clear)
    (fits : operands.length = operator.operands)
    (done : operator.effect registers operands = .ok effect) :
    (effect.results.length : Int) = (Operation.apply operator).depthAfter operands.length := by
  cases operator with
  | clear => exact absurd rfl notClear
  | printTop | printStack | quit =>
      cases done
      rfl
  | unary _ | dropTop | duplicate | printRegister =>
      obtain ⟨operand, rfl⟩ := List.length_eq_one_iff.mp fits
      cases done
      rfl
  | swap | store =>
      obtain ⟨upper, lower, rfl⟩ := List.length_eq_two.mp fits
      cases done
      rfl
  | binary operator =>
      obtain ⟨right, left, rfl⟩ := List.length_eq_two.mp fits
      rw [Operator.effect] at done
      cases found : operator.apply? left right with
      | none =>
          rw [found] at done
          cases done
      | some result =>
          rw [found] at done
          cases done
          rfl
  | setRadix =>
      obtain ⟨value, rfl⟩ := List.length_eq_one_iff.mp fits
      rw [Operator.effect] at done
      cases found : Radix.ofValue? value with
      | none =>
          rw [found] at done
          cases done
      | some radix =>
          rw [found] at done
          cases done
          rfl
  | fetch =>
      obtain ⟨id, rfl⟩ := List.length_eq_one_iff.mp fits
      rw [Operator.effect] at done
      cases found : registers.get id with
      | error fault =>
          rw [found] at done
          cases done
      | ok value =>
          rw [found] at done
          cases done
          rfl
  | take =>
      obtain ⟨id, rfl⟩ := List.length_eq_one_iff.mp fits
      rw [Operator.effect] at done
      cases found : registers.pop id with
      | error fault =>
          rw [found] at done
          cases done
      | ok taken =>
          rw [found] at done
          cases done
          rfl

private theorem length_after {state after : State} {operation : Operation}
    (done : state.next operation = .ok after) :
    (after.stack.length : Int) = operation.depthAfter state.stack.length := by
  cases operation with
  | push value =>
      cases done
      exact Nat.cast_succ state.stack.length
  | apply operator =>
      by_cases notClear : operator ≠ .clear
      · by_cases enough : operator.operands ≤ state.stack.length
        · have fits : (state.stack.take operator.operands).length = operator.operands :=
            List.length_take_of_le enough
          rw [next, afterOperator_of_enough notClear enough] at done
          cases found : operator.effect state.registers (state.stack.take operator.operands) with
          | error fault =>
              rw [found] at done
              cases done
          | ok effect =>
              rw [found] at done
              cases done
              have results := length_results notClear fits found
              rw [fits] at results
              have depth : (state.stack.length : Int) =
                  operator.operands + (state.stack.length - operator.operands : Nat) := by
                omega
              rw [withEffect, List.length_append, List.length_drop, Nat.cast_add, results, depth,
                depthAfter_add _ _ notClear]
        · rw [next, afterOperator_of_short (Nat.lt_of_not_le enough)] at done
          cases done
      · rw [not_ne_iff.mp notClear] at done
        rw [not_ne_iff.mp notClear]
        cases done
        rfl

theorem run_eq_error_iff (state : State) (operation : Operation) (fault : Fault) :
    state.run operation = .error fault ↔ state.Fails operation fault := by
  rw [← next_eq_error_iff, run]
  cases state.next operation with
  | error other => simp [Except.map]
  | ok after => simp [Except.map]

/-- An operation fails exactly as `Fails` says, and succeeds in every other
case; then it asks to quit only if it is the quit, and the depth of the stack is
the one known in advance. No failure of what the machine is built on gets out,
for any mechanism that represents the state. -/
theorem run_comes_to (state : State) (operation : Operation) :
    (∀ fault, state.run operation = .error fault ↔ state.Fails operation fault) ∧
      ((∃ reply, state.run operation = .ok reply) ↔ ∀ fault, ¬ state.Fails operation fault) ∧
      (∀ reply, state.run operation = .ok reply →
        (reply.quit = true ↔ operation = .apply .quit) ∧
          (reply.state.stack.length : Int) = operation.depthAfter state.stack.length) ∧
      (∃ mechanism : Mechanism, mechanism.Represents state) ∧
      ∀ mechanism : Mechanism, mechanism.Represents state →
        ∀ trouble, mechanism.attempt operation = .error trouble ↔
          ∃ fault, trouble = .fault fault ∧ state.Fails operation fault := by
  refine ⟨run_eq_error_iff state operation, ?_, ?_, Mechanism.exists_represents state, ?_⟩
  · constructor
    · intro ran fault fails
      obtain ⟨reply, done⟩ := ran
      rw [(run_eq_error_iff state operation fault).mpr fails] at done
      cases done
    · intro never
      cases ran : state.run operation with
      | ok reply => exact ⟨reply, rfl⟩
      | error fault => exact absurd ((run_eq_error_iff state operation fault).mp ran) (never fault)
  · intro reply ran
    rw [run] at ran
    cases done : state.next operation with
    | error fault =>
        rw [done] at ran
        cases ran
    | ok after =>
        rw [done] at ran
        cases ran
        exact ⟨beq_iff_eq, length_after done⟩
  · intro mechanism represents trouble
    rw [(Mechanism.attempt_comesTo represents operation).eq_error_iff]
    simp only [next_eq_error_iff]

end State

end WordCalc
