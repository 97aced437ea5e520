import WordCalc.Literal

/-!
Operations, and the tokens that name them.

There are twenty-six operators, each named by a single character. Every other
token is a literal and pushes its value, or is invalid. The three operators on
one value and the eleven on two are kept apart from the rest, because they are
functions on values and need no machine. A fault names why a token fails, both
when it is read and when it is run; the wording is in `Fault.message` alone.
-/

namespace WordCalc

inductive Fault
  | invalidInput (token : String)
  | emptyStack
  | emptyRegister (id : Value)
  | badRadix (value : Value)
  | zeroDivisor
  deriving DecidableEq

namespace Fault

def kind : Fault → String
  | .invalidInput _ => "InvalidInput"
  | .emptyStack => "EndOfStack"
  | .emptyRegister _ => "EndOfRegister"
  | .badRadix _ => "BadRadix"
  | .zeroDivisor => "DivideByZero"

/-- What the user is told. The token appears as it was given, unescaped. -/
def message : Fault → String
  | .invalidInput token => "Invalid input: '" ++ token ++ "'"
  | .emptyStack => "Stack is empty"
  | .emptyRegister id => "Register " ++ toString id ++ " is empty"
  | .badRadix value => "Bad radix: " ++ toString value
  | .zeroDivisor => "Divide by zero"

def trace (fault : Fault) : String :=
  "irpn.util." ++ fault.kind ++ ": " ++ fault.message

end Fault

inductive UnaryOp
  | complement
  | toUnsigned
  | toSigned
  deriving DecidableEq

def UnaryOp.apply (operator : UnaryOp) (operand : Value) : Value :=
  match operator with
  | .complement => ~~~operand
  | .toUnsigned => operand.reinterpret .unsigned
  | .toSigned => operand.reinterpret .signed

inductive BinaryOp
  | add
  | subtract
  | multiply
  | divide
  | remainder
  | power
  | and
  | or
  | xor
  | shiftLeft
  | shiftRight
  deriving DecidableEq

def BinaryOp.apply? (operator : BinaryOp) (left right : Value) : Option Value :=
  match operator with
  | .add => some (left + right)
  | .subtract => some (left - right)
  | .multiply => some (left * right)
  | .divide => left.divide? right
  | .remainder => left.remainder? right
  | .power => some (left.power right)
  | .and => some (left &&& right)
  | .or => some (left ||| right)
  | .xor => some (left ^^^ right)
  | .shiftLeft => some (left <<< right)
  | .shiftRight => some (left >>> right)

/-! ### Operators -/

inductive Operator
  | unary (operator : UnaryOp)
  | binary (operator : BinaryOp)
  | printTop
  | printStack
  | setRadix
  | dropTop
  | duplicate
  | clear
  | swap
  | store
  | fetch
  | take
  | printRegister
  | quit
  deriving DecidableEq

namespace Operator

def all : List Operator :=
  [.binary .add, .binary .subtract, .binary .multiply, .binary .divide, .binary .remainder,
   .binary .power, .binary .and, .binary .or, .binary .xor, .unary .complement,
   .binary .shiftLeft, .binary .shiftRight, .printTop, .printStack, .setRadix, .dropTop,
   .duplicate, .clear, .swap, .store, .fetch, .take, .printRegister, .unary .toUnsigned,
   .unary .toSigned, .quit]

def symbol : Operator → Char
  | .binary .add => '+'
  | .binary .subtract => '-'
  | .binary .multiply => '*'
  | .binary .divide => '/'
  | .binary .remainder => '%'
  | .binary .power => '^'
  | .binary .and => '&'
  | .binary .or => '|'
  | .binary .xor => 'x'
  | .unary .complement => '!'
  | .binary .shiftLeft => '<'
  | .binary .shiftRight => '>'
  | .printTop => 'p'
  | .printStack => 'f'
  | .setRadix => 'o'
  | .dropTop => 'n'
  | .duplicate => 'd'
  | .clear => 'c'
  | .swap => 'r'
  | .store => 's'
  | .fetch => 'l'
  | .take => 'L'
  | .printRegister => 'F'
  | .unary .toUnsigned => 'u'
  | .unary .toSigned => 'i'
  | .quit => 'q'

def label : Operator → String
  | .binary .add => "CalcOp.ADD"
  | .binary .subtract => "CalcOp.SUB"
  | .binary .multiply => "CalcOp.MUL"
  | .binary .divide => "CalcOp.DIV"
  | .binary .remainder => "CalcOp.MOD"
  | .binary .power => "CalcOp.POW"
  | .binary .and => "CalcOp.AND"
  | .binary .or => "CalcOp.OR"
  | .binary .xor => "CalcOp.XOR"
  | .unary .complement => "CalcOp.NOT"
  | .binary .shiftLeft => "CalcOp.SHL"
  | .binary .shiftRight => "CalcOp.SHR"
  | .printTop => "PrintOp.PRINT"
  | .printStack => "PrintOp.DUMP"
  | .setRadix => "PrintOp.OUTPUT"
  | .dropTop => "StackOp.POP"
  | .duplicate => "StackOp.DUP"
  | .clear => "StackOp.CLEAR"
  | .swap => "StackOp.REV"
  | .store => "RegOp.PUSH"
  | .fetch => "RegOp.GET"
  | .take => "RegOp.POP"
  | .printRegister => "RegOp.DUMP"
  | .unary .toUnsigned => "CastOp.U"
  | .unary .toSigned => "CastOp.I"
  | .quit => "ControlOp.QUIT"

def ofSymbol? (c : Char) : Option Operator :=
  all.find? fun operator => operator.symbol == c

def ofLabel? (label : String) : Option Operator :=
  all.find? fun operator => operator.label == label

theorem mem_all (operator : Operator) : operator ∈ all := by
  cases operator with
  | unary operator => cases operator <;> decide
  | binary operator => cases operator <;> decide
  | _ => decide

theorem ofSymbol?_eq_some_iff (c : Char) (operator : Operator) :
    ofSymbol? c = some operator ↔ operator.symbol = c := by
  constructor
  · intro found
    simpa using List.find?_some found
  · rintro rfl
    have every : ∀ operator ∈ all, ofSymbol? operator.symbol = some operator := by
      decide
    exact every operator (mem_all operator)

end Operator

def Value.parse (token : String) : Except Fault Value :=
  match Value.ofLiteral? token with
  | some value => .ok value
  | none => .error (.invalidInput token)

inductive Operation
  | push (value : Value)
  | apply (operator : Operator)
  deriving DecidableEq

namespace Operation

def label : Operation → String
  | .push value => "Push(value=" ++ value.description ++ ")"
  | .apply operator => operator.label

def operatorOf? (token : String) : Option Operator :=
  match token.toList with
  | [c] => Operator.ofSymbol? c
  | _ => none

def parse (token : String) : Except Fault Operation :=
  match operatorOf? token with
  | some operator => .ok (.apply operator)
  | none => (Value.parse token).map .push

end Operation

end WordCalc
