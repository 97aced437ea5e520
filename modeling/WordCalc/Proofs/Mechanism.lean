import WordCalc.Machine
import WordCalc.Proofs.StoredLists

/-!
The machine on top of what it is built on.

A mechanism does what the machine does with means that fail in ways of their
own: its bank keeps emptied lists, its divisions and look-ups are attempts. The
main statement is that none of these failures gets out. A mechanism fails when
the machine does, with the fault that the machine has, and goes on to represent
the state of the machine otherwise.
-/

namespace WordCalc

structure Mechanism where
  stack : List Value
  bank : Registers.StoredLists
  radix : Radix

namespace Mechanism

def top (mechanism : Mechanism) : Except Trouble Value :=
  match mechanism.stack with
  | value :: _ => .ok value
  | [] => .error (.fault .emptyStack)

def topTwo (mechanism : Mechanism) : Except Trouble (Value × Value) :=
  match mechanism.stack with
  | upper :: lower :: _ => .ok (upper, lower)
  | _ => .error (.fault .emptyStack)

def replacing (mechanism : Mechanism) (count : Nat) (results : List Value) : Mechanism :=
  { mechanism with stack := results ++ mechanism.stack.drop count }

def attemptOperator (mechanism : Mechanism) : Operator → Except Trouble Mechanism
  | .unary operator => do
      let operand ← mechanism.top
      return mechanism.replacing 1 [operator.apply operand]
  | .binary operator => do
      let (right, left) ← mechanism.topTwo
      let result ← operator.attempt left right
      return mechanism.replacing 2 [result]
  | .setRadix => do
      let value ← mechanism.top
      let radix ← Radix.attempt value
      return { mechanism.replacing 1 [] with radix }
  | .dropTop => do
      let _ ← mechanism.top
      return mechanism.replacing 1 []
  | .duplicate => do
      let value ← mechanism.top
      return mechanism.replacing 0 [value]
  | .swap => do
      let (upper, lower) ← mechanism.topTwo
      return mechanism.replacing 2 [lower, upper]
  | .store => do
      let (id, value) ← mechanism.topTwo
      return { mechanism.replacing 2 [] with bank := mechanism.bank.push id value }
  | .fetch => do
      let id ← mechanism.top
      let value ← mechanism.bank.get id
      return mechanism.replacing 1 [value]
  | .take => do
      let id ← mechanism.top
      let (value, bank) ← mechanism.bank.pop id
      return { mechanism.replacing 1 [value] with bank }
  | .printRegister => do
      let id ← mechanism.top
      let _ ← mechanism.bank.dump id
      return mechanism.replacing 1 []
  | .clear => .ok { mechanism with stack := [] }
  | .printTop | .printStack | .quit => .ok mechanism

def attempt (mechanism : Mechanism) : Operation → Except Trouble Mechanism
  | .push value => .ok (mechanism.replacing 0 [value])
  | .apply operator => mechanism.attemptOperator operator

/-- The mechanism has the stack and the radix of the state, and holds in its
bank what the registers hold. -/
structure Represents (mechanism : Mechanism) (state : State) : Prop where
  stack : mechanism.stack = state.stack
  radix : mechanism.radix = state.radix
  bank : ∀ id, mechanism.bank.held id = state.registers.dump id

/-- An attempt that comes to the same as a step of the machine. -/
inductive ComesTo : Except Trouble Mechanism → Except Fault State → Prop
  | done {mechanism : Mechanism} {state : State} :
      mechanism.Represents state → ComesTo (.ok mechanism) (.ok state)
  | failed (fault : Fault) : ComesTo (.error (.fault fault)) (.error fault)

theorem ComesTo.eq_error_iff {attempted : Except Trouble Mechanism} {next : Except Fault State}
    (comes : ComesTo attempted next) (trouble : Trouble) :
    attempted = .error trouble ↔ ∃ fault, trouble = .fault fault ∧ next = .error fault := by
  cases comes with
  | done represents => simp
  | failed fault => simp [eq_comm]

private theorem held_insert_all (entries : List Register) (id : Value) :
    Registers.StoredLists.held
        (entries.foldr (fun register bank => bank.insert register.id register.values.reverse) ∅) id =
      (((entries.find? fun register => register.id == id).map Register.values).getD []).reverse := by
  induction entries with
  | nil => exact Registers.StoredLists.storage_shows_held.fresh id
  | cons register rest ih =>
      rw [List.foldr_cons, Registers.StoredLists.held_insert, ih, List.find?_cons]
      by_cases same : id = register.id
      · rw [if_pos same, beq_iff_eq.mpr same.symm]
        rfl
      · rw [if_neg same, beq_eq_false_iff_ne.mpr fun other => same other.symm]

theorem exists_represents (state : State) : ∃ mechanism : Mechanism, mechanism.Represents state :=
  ⟨{ stack := state.stack
     bank := state.registers.entries.foldr
       (fun register bank => bank.insert register.id register.values.reverse) ∅
     radix := state.radix },
    ⟨rfl, rfl, held_insert_all state.registers.entries⟩⟩

section Operators

variable {stack : List Value} {bank : Registers.StoredLists} {registers : Registers}
  {radix : Radix} (same : ∀ id, bank.held id = registers.dump id)

include same

private theorem comesTo_binary (operator : BinaryOp) :
    ComesTo ((Mechanism.mk stack bank radix).attemptOperator (.binary operator))
      ((State.mk stack registers radix).afterOperator (.binary operator)) := by
  rcases stack with _ | ⟨right, _ | ⟨left, rest⟩⟩
  · exact .failed .emptyStack
  · exact .failed .emptyStack
  · simp only [attemptOperator, topTwo, State.afterOperator, operator.attempt_eq, bind, Except.bind]
    cases operator.apply? left right with
    | none => exact .failed .zeroDivisor
    | some result => exact .done ⟨rfl, rfl, same⟩

private theorem comesTo_setRadix :
    ComesTo ((Mechanism.mk stack bank radix).attemptOperator .setRadix)
      ((State.mk stack registers radix).afterOperator .setRadix) := by
  rcases stack with _ | ⟨value, rest⟩
  · exact .failed .emptyStack
  · simp only [attemptOperator, top, State.afterOperator, Radix.attempt_eq, bind, Except.bind]
    cases Radix.ofValue? value with
    | none => exact .failed (.badRadix value)
    | some named => exact .done ⟨rfl, rfl, same⟩

private theorem comesTo_store :
    ComesTo ((Mechanism.mk stack bank radix).attemptOperator .store)
      ((State.mk stack registers radix).afterOperator .store) := by
  rcases stack with _ | ⟨id, _ | ⟨value, rest⟩⟩
  · exact .failed .emptyStack
  · exact .failed .emptyStack
  · refine .done ⟨rfl, rfl, fun other => ?_⟩
    have kept := Registers.StoredLists.storage_shows_held.leaves bank ⟨id, .push value⟩ other
    have shown := Registers.storage_shows_dump.leaves registers ⟨id, .push value⟩ other
    rw [← same other] at shown
    exact kept.trans shown.symm

private theorem comesTo_fetch :
    ComesTo ((Mechanism.mk stack bank radix).attemptOperator .fetch)
      ((State.mk stack registers radix).afterOperator .fetch) := by
  rcases stack with _ | ⟨id, rest⟩
  · exact .failed .emptyStack
  · simp only [attemptOperator, top, State.afterOperator, Registers.get,
      Registers.StoredLists.get_eq, same, Registers.dump, List.getLast?_reverse, bind, Except.bind]
    cases registers.contents id with
    | nil => exact .failed (.emptyRegister id)
    | cons newest older => exact .done ⟨rfl, rfl, same⟩

private theorem comesTo_take :
    ComesTo ((Mechanism.mk stack bank radix).attemptOperator .take)
      ((State.mk stack registers radix).afterOperator .take) := by
  rcases stack with _ | ⟨id, rest⟩
  · exact .failed .emptyStack
  · simp only [attemptOperator, top, State.afterOperator, Registers.pop,
      Registers.StoredLists.pop_eq, same, Registers.dump, List.getLast?_reverse, bind, Except.bind]
    cases contents : registers.contents id with
    | nil => exact .failed (.emptyRegister id)
    | cons newest older =>
        refine .done ⟨rfl, rfl, fun other => ?_⟩
        simp only [Registers.StoredLists.held_insert, Registers.dump, Registers.contents_replace,
          List.reverse_cons, List.dropLast_concat]
        split
        · rfl
        · exact same other

private theorem comesTo_printRegister :
    ComesTo ((Mechanism.mk stack bank radix).attemptOperator .printRegister)
      ((State.mk stack registers radix).afterOperator .printRegister) := by
  rcases stack with _ | ⟨id, rest⟩
  · exact .failed .emptyStack
  · simp only [attemptOperator, top, State.afterOperator, Registers.StoredLists.dump_eq, bind,
      Except.bind]
    exact .done ⟨rfl, rfl, same⟩

end Operators

/-- Faults alone get out of a mechanism, and only those of the machine. -/
theorem attempt_comesTo {mechanism : Mechanism} {state : State}
    (represents : mechanism.Represents state) (operation : Operation) :
    ComesTo (mechanism.attempt operation) (state.next operation) := by
  obtain ⟨stack, bank, radix⟩ := mechanism
  obtain ⟨_, registers, _⟩ := state
  obtain ⟨rfl, rfl, same⟩ := represents
  cases operation with
  | push value => exact .done ⟨rfl, rfl, same⟩
  | apply operator =>
      cases operator with
      | unary _ | dropTop | duplicate =>
          cases stack with
          | nil => exact .failed .emptyStack
          | cons value rest => exact .done ⟨rfl, rfl, same⟩
      | swap =>
          rcases stack with _ | ⟨upper, _ | ⟨lower, rest⟩⟩
          · exact .failed .emptyStack
          · exact .failed .emptyStack
          · exact .done ⟨rfl, rfl, same⟩
      | binary operator => exact comesTo_binary same operator
      | setRadix => exact comesTo_setRadix same
      | store => exact comesTo_store same
      | fetch => exact comesTo_fetch same
      | take => exact comesTo_take same
      | printRegister => exact comesTo_printRegister same
      | printTop | printStack | clear | quit => exact .done ⟨rfl, rfl, same⟩

end Mechanism

end WordCalc
