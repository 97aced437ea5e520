import WordCalc.Registers

/-!
The stack machine.

A state has a stack of values, a bank of registers and an output radix. An
operation on a state either fails with a fault, and then there is no new state
at all, or gives the next state and shows some values. What is shown does not
depend on the radix; the radix in force before the operation only decides how
the values are printed.
-/

namespace WordCalc

/-- What the machine remembers. The top of the stack is the head of the list. -/
structure State where
  stack : List Value
  registers : Registers
  radix : Radix

namespace State

def initial : State :=
  { stack := [], registers := .empty, radix := .decimal }

def top? (state : State) : Option Value :=
  state.stack.head?

/-- The state with values pushed from left to right, so the last one is on top. -/
def pushAll (state : State) (values : List Value) : State :=
  { state with stack := values.reverse ++ state.stack }

/-- The state after an operator. Operators take their operands from the top of
the stack, the right one first. A stack that is too short fails before anything
else is looked at. -/
def afterOperator (state : State) (operator : Operator) : Except Fault State :=
  match operator, state.stack with
  | .unary operator, operand :: rest =>
      .ok { state with stack := operator.apply operand :: rest }
  | .binary operator, right :: left :: rest =>
      match operator.apply? left right with
      | some result => .ok { state with stack := result :: rest }
      | none => .error .zeroDivisor
  | .setRadix, value :: rest =>
      match Radix.ofValue? value with
      | some radix => .ok { state with stack := rest, radix }
      | none => .error (.badRadix value)
  | .dropTop, _ :: rest => .ok { state with stack := rest }
  | .duplicate, value :: rest => .ok { state with stack := value :: value :: rest }
  | .swap, upper :: lower :: rest => .ok { state with stack := lower :: upper :: rest }
  | .store, id :: value :: rest =>
      .ok { state with stack := rest, registers := state.registers.push id value }
  | .fetch, id :: rest =>
      (state.registers.get id).map fun value => { state with stack := value :: rest }
  | .take, id :: rest =>
      (state.registers.pop id).map fun (value, registers) =>
        { state with stack := value :: rest, registers }
  | .printRegister, _ :: rest => .ok { state with stack := rest }
  | .clear, _ => .ok { state with stack := [] }
  | .printTop, _ | .printStack, _ | .quit, _ => .ok state
  | _, _ => .error .emptyStack

def next (state : State) : Operation → Except Fault State
  | .push value => .ok { state with stack := value :: state.stack }
  | .apply operator => state.afterOperator operator

/-- The values that an operation shows if it succeeds: the stack bottom first,
and a register oldest value first. -/
def shown (state : State) : Operation → List Value
  | .apply .printTop | .apply .dropTop => state.stack.head?.toList
  | .apply .printStack => state.stack.reverse
  | .apply .printRegister =>
      match state.stack with
      | id :: _ => state.registers.dump id
      | [] => []
  | _ => []

end State

structure Reply where
  quit : Bool
  lines : List String
  state : State

namespace State

def run (state : State) (operation : Operation) : Except Fault Reply :=
  (state.next operation).map fun after =>
    { quit := operation == .apply .quit
      lines := (state.shown operation).map state.radix.format
      state := after }

def feed (state : State) (token : String) : Except Fault Reply := do
  state.run (← Operation.parse token)

end State

end WordCalc
