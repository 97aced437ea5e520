import WordCalc.Proofs.Run

/-!
Expressions, and the operations that evaluate them.

The operations of an expression are those of its operands, left before right,
followed by its own operator. Whatever is on the stack, they put the value of
the expression on top of it, or come to a quotient or a remainder by zero where
the expression itself has no value.
-/

namespace WordCalc

inductive Expression
  | leaf (value : Value)
  | unary (operator : UnaryOp) (operand : Expression)
  | binary (operator : BinaryOp) (left right : Expression)

namespace Expression

def operations : Expression → List Operation
  | .leaf value => [.push value]
  | .unary operator operand => operand.operations ++ [.apply (.unary operator)]
  | .binary operator left right =>
      left.operations ++ right.operations ++ [.apply (.binary operator)]

def steps (expression : Expression) : List Step :=
  expression.operations.map .run

def value? : Expression → Option Value
  | .leaf value => some value
  | .unary operator operand => do
      let operand ← operand.value?
      match operator with
      | .complement => some (~~~operand)
      | .toUnsigned => some (operand.reinterpret .unsigned)
      | .toSigned => some (operand.reinterpret .signed)
  | .binary operator left right => do
      let left ← left.value?
      let right ← right.value?
      match operator with
      | .add => some (left + right)
      | .subtract => some (left - right)
      | .multiply => some (left * right)
      | .divide => left.divide? right
      | .remainder => left.remainder? right
      | .power => some (left.power right)
      | .and => some (left &&& right)
      | .or => some (left ||| right)
      | .xor => some (left ^^^ right)
      | .shiftLeft => some (left <<< right)
      | .shiftRight => some (left >>> right)

/-- Evaluation, left operand first, meets a quotient or a remainder by zero. -/
inductive DividesByZero : Expression → Prop
  | operand {operator : UnaryOp} {operand : Expression} :
      operand.DividesByZero → (unary operator operand).DividesByZero
  | left {operator : BinaryOp} {left right : Expression} :
      left.DividesByZero → (binary operator left right).DividesByZero
  | right {operator : BinaryOp} {left right : Expression} {value : Value} :
      left.value? = some value → right.DividesByZero →
        (binary operator left right).DividesByZero
  | here {operator : BinaryOp} {left right : Expression} {dividend divisor : Value} :
      operator = .divide ∨ operator = .remainder →
        left.value? = some dividend → right.value? = some divisor → divisor.payload = 0 →
          (binary operator left right).DividesByZero

theorem value?_unary (operator : UnaryOp) (operand : Expression) :
    (unary operator operand).value? = operand.value?.map operator.apply := by
  rw [value?]
  cases operand.value? with
  | none => rfl
  | some value => cases operator <;> rfl

theorem value?_binary (operator : BinaryOp) (left right : Expression) :
    (binary operator left right).value? =
      left.value?.bind fun dividend =>
        right.value?.bind fun divisor => operator.apply? dividend divisor := by
  rw [value?]
  cases left.value? with
  | none => rfl
  | some dividend =>
      cases right.value? with
      | none => rfl
      | some divisor => cases operator <;> rfl

end Expression

theorem BinaryOp.apply?_eq_none_iff (operator : BinaryOp) (left right : Value) :
    operator.apply? left right = none ↔
      (operator = .divide ∨ operator = .remainder) ∧ right.payload = 0 := by
  rw [← Value.isZero_iff_payload_eq_zero]
  cases operator <;> simp [Value.divide?, Value.remainder?, BinaryOp.apply?]

namespace Expression

theorem value?_eq_none_iff (expression : Expression) :
    expression.value? = none ↔ expression.DividesByZero := by
  induction expression with
  | leaf value =>
      constructor
      · intro missing
        cases missing
      · intro divides
        cases divides
  | unary operator operand ih =>
      rw [value?_unary, Option.map_eq_none_iff, ih]
      constructor
      · exact DividesByZero.operand
      · intro divides
        cases divides with
        | operand inside => exact inside
  | binary operator left right ihLeft ihRight =>
      cases leftValue : left.value? with
      | none =>
          have leftDivides := ihLeft.mp leftValue
          rw [value?_binary, leftValue, Option.bind_none]
          refine iff_of_true rfl ?_
          exact .left leftDivides
      | some dividend =>
          have leftFine : ¬ left.DividesByZero := by
            rw [← ihLeft, leftValue]
            exact Option.some_ne_none dividend
          cases rightValue : right.value? with
          | none =>
              have rightDivides := ihRight.mp rightValue
              rw [value?_binary, leftValue, rightValue, Option.bind_some, Option.bind_none]
              refine iff_of_true rfl ?_
              exact .right leftValue rightDivides
          | some divisor =>
              have rightFine : ¬ right.DividesByZero := by
                rw [← ihRight, rightValue]
                exact Option.some_ne_none divisor
              rw [value?_binary, leftValue, rightValue, Option.bind_some, Option.bind_some,
                BinaryOp.apply?_eq_none_iff]
              constructor
              · intro atZero
                exact .here atZero.1 leftValue rightValue atZero.2
              · intro divides
                cases divides with
                | left inside => exact absurd inside leftFine
                | right _ inside => exact absurd inside rightFine
                | here divides leftSame rightSame zero =>
                    obtain rfl := Option.some.inj (rightValue.symm.trans rightSame)
                    exact ⟨divides, zero⟩

private theorem step_unary (operator : UnaryOp) (operand : Value) (rest : List Value)
    (registers : Registers) (radix : Radix) :
    (State.mk (operand :: rest) registers radix).step (.run (.apply (.unary operator))) =
      { result := .ok (some false), lines := []
        state := ⟨operator.apply operand :: rest, registers, radix⟩ } := rfl

private theorem step_binary_of_some {operator : BinaryOp} {left right result : Value}
    (found : operator.apply? left right = some result) (rest : List Value)
    (registers : Registers) (radix : Radix) :
    (State.mk (right :: left :: rest) registers radix).step (.run (.apply (.binary operator))) =
      { result := .ok (some false), lines := []
        state := ⟨result :: rest, registers, radix⟩ } := by
  simp only [State.step, Step.operation?, bind, Except.bind, State.run, State.next,
    State.afterOperator, found]
  rfl

private theorem step_binary_of_none {operator : BinaryOp} {left right : Value}
    (missing : operator.apply? left right = none) (rest : List Value)
    (registers : Registers) (radix : Radix) :
    (State.mk (right :: left :: rest) registers radix).step (.run (.apply (.binary operator))) =
      { result := .error .zeroDivisor, lines := []
        state := ⟨right :: left :: rest, registers, radix⟩ } := by
  simp only [State.step, Step.operation?, bind, Except.bind, State.run, State.next,
    State.afterOperator, missing]
  rfl

/-! ### Whole expressions -/

private theorem steps_unary (operator : UnaryOp) (operand : Expression) :
    (unary operator operand).steps = operand.steps ++ [.run (.apply (.unary operator))] :=
  List.map_append

private theorem steps_binary (operator : BinaryOp) (left right : Expression) :
    (binary operator left right).steps =
      left.steps ++ (right.steps ++ [.run (.apply (.binary operator))]) := by
  simp only [steps, operations, List.map_append, List.append_assoc]
  rfl

theorem reaches_of_value {expression : Expression} {value : Value}
    (found : expression.value? = some value) (state : State) :
    state.Reaches expression.steps { state with stack := value :: state.stack } := by
  induction expression generalizing value state with
  | leaf given =>
      obtain rfl : given = value := Option.some.inj found
      exact State.Reaches.of_step rfl
  | unary operator operand ih =>
      rw [value?_unary] at found
      obtain ⟨inner, innerFound, rfl⟩ := Option.map_eq_some_iff.mp found
      have last := step_unary operator inner state.stack state.registers state.radix
      rw [steps_unary]
      exact (ih innerFound state).append (.of_step last)
  | binary operator left right ihLeft ihRight =>
      rw [value?_binary] at found
      obtain ⟨leftValue, leftFound, inRight⟩ := Option.bind_eq_some_iff.mp found
      obtain ⟨rightValue, rightFound, result⟩ := Option.bind_eq_some_iff.mp inRight
      have last := step_binary_of_some result state.stack state.registers state.radix
      rw [steps_binary]
      exact (ihLeft leftFound state).append ((ihRight rightFound _).append (.of_step last))

theorem firstFails_of_dividesByZero {expression : Expression}
    (divides : expression.DividesByZero) (state : State) :
    state.FirstFails expression.steps .zeroDivisor := by
  induction divides generalizing state with
  | operand _ ih =>
      rw [steps_unary]
      exact (ih state).append _
  | left _ ih =>
      rw [steps_binary]
      exact (ih state).append _
  | right leftFound _ ih =>
      rw [steps_binary]
      exact (reaches_of_value leftFound state).firstFails ((ih _).append _)
  | @here operator left right dividend divisor divides leftFound rightFound zero =>
      have missing : operator.apply? dividend divisor = none :=
        (operator.apply?_eq_none_iff dividend divisor).mpr ⟨divides, zero⟩
      have last := step_binary_of_none missing state.stack state.registers state.radix
      have failed := congrArg Outcome.result last
      rw [steps_binary]
      exact (reaches_of_value leftFound state).firstFails
        ((reaches_of_value rightFound _).firstFails (.of_step failed))

/-- It only pushes a value, or puts a result in the place of its operands. -/
def Calculates : Operation → Prop
  | .push _ => True
  | .apply (.unary _) => True
  | .apply (.binary _) => True
  | .apply _ => False

private theorem calculates_of_mem (expression : Expression) :
    ∀ operation ∈ expression.operations, Calculates operation := by
  induction expression with
  | leaf value =>
      intro operation member
      rw [operations, List.mem_singleton] at member
      subst member
      trivial
  | unary operator operand ih =>
      intro operation member
      rw [operations, List.mem_append, List.mem_singleton] at member
      rcases member with inOperand | rfl
      · exact ih operation inOperand
      · trivial
  | binary operator left right ihLeft ihRight =>
      intro operation member
      rw [operations, List.mem_append, List.mem_append, List.mem_singleton] at member
      rcases member with (inLeft | inRight) | rfl
      · exact ihLeft operation inLeft
      · exact ihRight operation inRight
      · trivial

private theorem step_of_calculates {operation : Operation} (calculates : Calculates operation)
    (state : State) :
    (state.step (.run operation)).lines = [] ∧
      (state.step (.run operation)).state.registers = state.registers ∧
      (state.step (.run operation)).state.radix = state.radix := by
  obtain ⟨stack, registers, radix⟩ := state
  cases operation with
  | push value => exact ⟨rfl, rfl, rfl⟩
  | apply operator =>
      cases operator with
      | unary operator =>
          cases stack with
          | nil => exact ⟨rfl, rfl, rfl⟩
          | cons operand rest => exact ⟨rfl, rfl, rfl⟩
      | binary operator =>
          rcases stack with _ | ⟨right, _ | ⟨left, rest⟩⟩
          · exact ⟨rfl, rfl, rfl⟩
          · exact ⟨rfl, rfl, rfl⟩
          · cases found : operator.apply? left right with
            | none =>
                rw [step_binary_of_none found]
                exact ⟨rfl, rfl, rfl⟩
            | some result =>
                rw [step_binary_of_some found]
                exact ⟨rfl, rfl, rfl⟩
      | _ => cases calculates

/-- No step of an evaluation, failing or not, prints or touches anything but the
stack. -/
theorem outcomes_quiet (expression : Expression) (state : State) :
    ∀ outcome ∈ state.outcomes expression.steps,
      outcome.lines = [] ∧ outcome.state.registers = state.registers ∧
        outcome.state.radix = state.radix := by
  refine State.forall_outcomes
    (fun now => now.registers = state.registers ∧ now.radix = state.radix) ?_ ⟨rfl, rfl⟩
  intro step member now same
  obtain ⟨operation, inOperations, rfl⟩ := List.mem_map.mp member
  obtain ⟨quiet, registersKept, radixKept⟩ :=
    step_of_calculates (calculates_of_mem expression operation inOperations) now
  have registers := registersKept.trans same.1
  have radix := radixKept.trans same.2
  exact ⟨⟨quiet, registers, radix⟩, registers, radix⟩

/-- The operations of an expression put its value on top of any stack, or else,
exactly when its evaluation divides by zero, the first of them that fails fails
for that reason. Nothing is printed either way, and nothing but the stack
changes. -/
theorem operations_evaluate (expression : Expression) (state : State) :
    (∀ outcome ∈ state.outcomes expression.steps,
        outcome.lines = [] ∧ outcome.state.registers = state.registers ∧
          outcome.state.radix = state.radix) ∧
      (expression.value? = none ↔ expression.DividesByZero) ∧
      match expression.value? with
      | some value =>
          state.Reaches expression.steps { state with stack := value :: state.stack }
      | none => state.FirstFails expression.steps .zeroDivisor := by
  refine ⟨outcomes_quiet expression state, value?_eq_none_iff expression, ?_⟩
  cases found : expression.value? with
  | some value => exact reaches_of_value found state
  | none => exact firstFails_of_dividesByZero ((value?_eq_none_iff expression).mp found) state

end Expression

end WordCalc
