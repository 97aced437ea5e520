import WordCalc.Proofs.Run

/-!
The machine as procedures that change it in place.

`State.run` says in one go what an operation comes to. Here an operation is the
sequence of actions it consists of: the operands are looked at, the result is
computed, a register or the radix is written, operands are popped, results are
pushed, values are printed. Any action may fail, and what was done before the
failure is not undone. Still nothing is left half done: a procedure that fails
hands back the session it was given, and one that succeeds does what `State.run`
says.

A way of carrying out steps is atomic if a step that fails has printed nothing
and has changed nothing. From a run of atomic steps all failing ones can be left
out: the others succeed as before, with the same outcomes.
-/

namespace WordCalc

structure Session where
  machine : State
  printed : List String

/-- A procedure gives a result or a fault, and the session it leaves in either
case. -/
abbrev Procedure (α : Type) : Type := EStateM Fault Session α

namespace Procedure

def change (update : State → State) : Procedure Unit :=
  modify fun session => { session with machine := update session.machine }

def push (value : Value) : Procedure Unit :=
  change fun machine => { machine with stack := value :: machine.stack }

def print (value : Value) : Procedure Unit :=
  modify fun session =>
    { session with printed := session.printed ++ [session.machine.radix.format value] }

def peek : Procedure Value := do
  match (← get).machine.stack with
  | value :: _ => return value
  | [] => throw .emptyStack

def peekTwo : Procedure (Value × Value) := do
  match (← get).machine.stack with
  | upper :: lower :: _ => return (lower, upper)
  | _ => throw .emptyStack

def pop : Procedure Value := do
  let value ← peek
  change fun machine => { machine with stack := machine.stack.tail }
  return value

/-- Pops two values one by one, the upper one first. That there are two is
settled before the first is taken. -/
def popTwo : Procedure (Value × Value) := do
  let _ ← peekTwo
  let upper ← pop
  let lower ← pop
  return (upper, lower)

def ofUnary (operator : UnaryOp) : Procedure Unit := do
  let operand ← peek
  let _ ← pop
  push (operator.apply operand)

def ofBinary (operator : BinaryOp) : Procedure Unit := do
  let (left, right) ← peekTwo
  match operator.apply? left right with
  | some result =>
      let _ ← popTwo
      push result
  | none => throw .zeroDivisor

def printTop : Procedure Unit := do
  match (← get).machine.top? with
  | some value => print value
  | none => return

def dropTop : Procedure Unit := do
  print (← pop)

def duplicate : Procedure Unit := do
  push (← peek)

def swap : Procedure Unit := do
  let (upper, lower) ← popTwo
  push upper
  push lower

def setRadix : Procedure Unit := do
  let value ← peek
  match Radix.ofValue? value with
  | some radix =>
      change fun machine => { machine with radix }
      let _ ← pop
  | none => throw (.badRadix value)

def store : Procedure Unit := do
  let (value, id) ← peekTwo
  change fun machine => { machine with registers := machine.registers.push id value }
  let _ ← popTwo

def fetch : Procedure Unit := do
  let id ← peek
  let value ← ofExcept ((← get).machine.registers.get id)
  let _ ← pop
  push value

def take : Procedure Unit := do
  let id ← peek
  let (value, registers) ← ofExcept ((← get).machine.registers.pop id)
  change fun machine => { machine with registers }
  let _ ← pop
  push value

def printRegister : Procedure Unit := do
  let id ← peek
  let values := (← get).machine.registers.dump id
  let _ ← pop
  values.forM print

def ofOperator : Operator → Procedure Unit
  | .unary operator => ofUnary operator
  | .binary operator => ofBinary operator
  | .printTop => printTop
  | .printStack => do (← get).machine.stack.reverse.forM print
  | .setRadix => setRadix
  | .dropTop => dropTop
  | .duplicate => duplicate
  | .clear => change fun machine => { machine with stack := [] }
  | .swap => swap
  | .store => store
  | .fetch => fetch
  | .take => take
  | .printRegister => printRegister
  | .quit => return

def ofOperation : Operation → Procedure Bool
  | .push value => do
      push value
      return false
  | .apply .quit => return true
  | .apply operator => do
      ofOperator operator
      return false

def ofStep (step : Step) : Procedure (Option Bool) := do
  let operation ← ofExcept step.operation?
  let quit ← ofOperation operation
  return step.answer quit

def execute (state : State) (step : Step) : Outcome :=
  match (ofStep step).run { machine := state, printed := [] } with
  | .ok answer session =>
      { result := .ok answer, lines := session.printed, state := session.machine }
  | .error fault session =>
      { result := .error fault, lines := session.printed, state := session.machine }

/-! ### What actions come to -/

section Actions

variable (value upper lower : Value) (rest : List Value) (registers : Registers)
  (radix : Radix) (printed : List String) (session : Session)

@[simp] theorem run_throw {α : Type} (fault : Fault) :
    (throw fault : Procedure α).run session = .error fault session := rfl

@[simp] theorem run_map {α β : Type} (convert : α → β) (procedure : Procedure α) :
    (convert <$> procedure).run session =
      match procedure.run session with
      | .ok result after => .ok (convert result) after
      | .error fault after => .error fault after := by
  rw [map_eq_pure_bind, EStateM.run_bind]
  cases procedure.run session with
  | ok result after => rfl
  | error fault after => rfl

@[simp] theorem run_change (update : State → State) :
    (change update).run session =
      .ok () { session with machine := update session.machine } := rfl

@[simp] theorem run_push :
    (push value).run { machine := ⟨rest, registers, radix⟩, printed } =
      .ok () { machine := ⟨value :: rest, registers, radix⟩, printed } := rfl

@[simp] theorem run_print :
    (print value).run session =
      .ok () { session with
        printed := session.printed ++ [session.machine.radix.format value] } := rfl

@[simp] theorem run_peek_nil :
    peek.run { machine := ⟨[], registers, radix⟩, printed } =
      .error .emptyStack { machine := ⟨[], registers, radix⟩, printed } := rfl

@[simp] theorem run_peek_cons :
    peek.run { machine := ⟨value :: rest, registers, radix⟩, printed } =
      .ok value { machine := ⟨value :: rest, registers, radix⟩, printed } := rfl

@[simp] theorem run_peekTwo_cons :
    peekTwo.run { machine := ⟨upper :: lower :: rest, registers, radix⟩, printed } =
      .ok (lower, upper) { machine := ⟨upper :: lower :: rest, registers, radix⟩, printed } := rfl

@[simp] theorem run_pop_cons :
    pop.run { machine := ⟨value :: rest, registers, radix⟩, printed } =
      .ok value { machine := ⟨rest, registers, radix⟩, printed } := rfl

@[simp] theorem run_popTwo_cons :
    popTwo.run { machine := ⟨upper :: lower :: rest, registers, radix⟩, printed } =
      .ok (upper, lower) { machine := ⟨rest, registers, radix⟩, printed } := rfl

@[simp] theorem run_forM_print (values : List Value) :
    (forM values print : Procedure Unit).run session =
      .ok () { session with
        printed := session.printed ++ values.map session.machine.radix.format } := by
  induction values generalizing session with
  | nil =>
      rw [List.map_nil, List.append_nil]
      rfl
  | cons value rest ih =>
      rw [List.forM_cons, EStateM.run_bind, run_print]
      simp only [ih]
      rw [List.map_cons, List.append_assoc, List.singleton_append]

end Actions

/-- The procedure leaves the state that the operator leads to and has printed
what the operator shows, or else it fails and has changed nothing. -/
def Performs (procedure : Procedure Unit) (operator : Operator) : Prop :=
  ∀ session : Session,
    procedure.run session =
      match session.machine.afterOperator operator with
      | .ok after =>
          .ok () {
            machine := after
            printed := session.printed ++
              (session.machine.shown (.apply operator)).map session.machine.radix.format }
      | .error fault => .error fault session

private theorem ofUnary_performs (operator : UnaryOp) :
    Performs (ofUnary operator) (.unary operator) := by
  intro session
  obtain ⟨⟨stack, registers, radix⟩, printed⟩ := session
  cases stack with
  | nil => rfl
  | cons operand rest =>
      simp [ofUnary, State.afterOperator, State.shown]

private theorem ofBinary_performs (operator : BinaryOp) :
    Performs (ofBinary operator) (.binary operator) := by
  intro session
  obtain ⟨⟨stack, registers, radix⟩, printed⟩ := session
  rcases stack with _ | ⟨right, _ | ⟨left, rest⟩⟩
  · rfl
  · rfl
  · cases found : operator.apply? left right with
    | none =>
        simp [ofBinary, found, State.afterOperator]
    | some result =>
        simp [ofBinary, found, State.afterOperator, State.shown]

private theorem setRadix_performs : Performs setRadix .setRadix := by
  intro session
  obtain ⟨⟨stack, registers, radix⟩, printed⟩ := session
  cases stack with
  | nil => rfl
  | cons value rest =>
      cases found : Radix.ofValue? value with
      | none =>
          simp [setRadix, found, State.afterOperator]
      | some named =>
          simp [setRadix, found, State.afterOperator, State.shown]

private theorem store_performs : Performs store .store := by
  intro session
  obtain ⟨⟨stack, registers, radix⟩, printed⟩ := session
  rcases stack with _ | ⟨id, _ | ⟨value, rest⟩⟩
  · rfl
  · rfl
  · simp [store, State.afterOperator, State.shown]

private theorem fetch_performs : Performs fetch .fetch := by
  intro session
  obtain ⟨⟨stack, registers, radix⟩, printed⟩ := session
  cases stack with
  | nil => rfl
  | cons id rest =>
      cases found : registers.get id with
      | error fault =>
          simp [fetch, found, ofExcept, State.afterOperator, Except.map]
      | ok value =>
          simp [fetch, found, ofExcept, State.afterOperator, State.shown, Except.map]

private theorem take_performs : Performs take .take := by
  intro session
  obtain ⟨⟨stack, registers, radix⟩, printed⟩ := session
  cases stack with
  | nil => rfl
  | cons id rest =>
      cases found : registers.pop id with
      | error fault =>
          simp [take, found, ofExcept, State.afterOperator, Except.map]
      | ok taken =>
          simp [take, found, ofExcept, State.afterOperator, State.shown, Except.map]

private theorem printRegister_performs : Performs printRegister .printRegister := by
  intro session
  obtain ⟨⟨stack, registers, radix⟩, printed⟩ := session
  cases stack with
  | nil => rfl
  | cons id rest =>
      simp [printRegister, State.afterOperator, State.shown]

private theorem printTop_performs : Performs printTop .printTop := by
  intro session
  obtain ⟨⟨stack, registers, radix⟩, printed⟩ := session
  cases stack with
  | nil =>
      simp [printTop, State.top?, State.afterOperator, State.shown]
  | cons value rest =>
      simp [printTop, State.top?, State.afterOperator, State.shown]

private theorem dropTop_performs : Performs dropTop .dropTop := by
  intro session
  obtain ⟨⟨stack, registers, radix⟩, printed⟩ := session
  cases stack with
  | nil => rfl
  | cons value rest =>
      simp [dropTop, State.afterOperator, State.shown]

private theorem duplicate_performs : Performs duplicate .duplicate := by
  intro session
  obtain ⟨⟨stack, registers, radix⟩, printed⟩ := session
  cases stack with
  | nil => rfl
  | cons value rest =>
      simp [duplicate, State.afterOperator, State.shown]

private theorem swap_performs : Performs swap .swap := by
  intro session
  obtain ⟨⟨stack, registers, radix⟩, printed⟩ := session
  rcases stack with _ | ⟨upper, _ | ⟨lower, rest⟩⟩
  · rfl
  · rfl
  · simp [swap, State.afterOperator, State.shown]

theorem ofOperator_performs (operator : Operator) :
    Performs (ofOperator operator) operator := by
  cases operator with
  | unary operator => exact ofUnary_performs operator
  | binary operator => exact ofBinary_performs operator
  | printTop => exact printTop_performs
  | printStack =>
      intro session
      simp [ofOperator, State.afterOperator, State.shown]
  | setRadix => exact setRadix_performs
  | dropTop => exact dropTop_performs
  | duplicate => exact duplicate_performs
  | clear =>
      intro session
      simp [ofOperator, State.afterOperator, State.shown]
  | swap => exact swap_performs
  | store => exact store_performs
  | fetch => exact fetch_performs
  | take => exact take_performs
  | printRegister => exact printRegister_performs
  | quit =>
      intro session
      simp [ofOperator, State.afterOperator, State.shown]

theorem run_ofOperation (operation : Operation) (session : Session) :
    (ofOperation operation).run session =
      match session.machine.run operation with
      | .ok reply =>
          .ok reply.quit
            { machine := reply.state, printed := session.printed ++ reply.lines }
      | .error fault => .error fault session := by
  cases operation with
  | push value =>
      simp [ofOperation, State.run, State.next, State.shown, Except.map, push]
  | apply operator =>
      have performs := ofOperator_performs operator session
      by_cases quits : operator = .quit
      · subst quits
        simp [ofOperation, State.run, State.next, State.shown, State.afterOperator, Except.map]
      · have quiet : (Operation.apply operator == .apply .quit) = false := by
          simpa using quits
        have unfolded : ofOperation (.apply operator) = do
            ofOperator operator
            return false := by
          cases operator with
          | quit => exact absurd rfl quits
          | _ => rfl
        rw [unfolded, EStateM.run_bind, performs]
        simp only [State.run, State.next, quiet]
        cases session.machine.afterOperator operator with
        | error fault => rfl
        | ok after => rfl

/-- Step by step the procedures do what `State.step` says. -/
theorem execute_eq_step (state : State) (step : Step) :
    execute state step = state.step step := by
  unfold execute ofStep State.step
  cases asked : step.operation? with
  | error fault => rfl
  | ok operation =>
      have ran := run_ofOperation operation { machine := state, printed := [] }
      simp only [ofExcept, EStateM.run_bind, EStateM.run_pure, ran]
      cases ended : state.run operation with
      | error fault => simp [ended, bind, Except.bind]
      | ok reply => simp [ended, bind, Except.bind]

end Procedure

def Atomic (execute : State → Step → Outcome) : Prop :=
  ∀ (state : State) (step : Step) (fault : Fault),
    (execute state step).result = .error fault →
      (execute state step).lines = [] ∧ (execute state step).state = state

section Survivors

variable {execute : State → Step → Outcome}

private theorem survivors_cons_of_succeeded {state : State} {step : Step} (rest : List Step)
    (succeeded : (execute state step).succeeded = true) :
    survivors execute state (step :: rest) =
      step :: survivors execute (execute state step).state rest := by
  simp only [survivors, record, List.zip_cons_cons, List.filter_cons, succeeded, if_true,
    List.map_cons]

private theorem survivors_cons_of_failed {state : State} {step : Step} (rest : List Step)
    (failed : (execute state step).succeeded = false) :
    survivors execute state (step :: rest) =
      survivors execute (execute state step).state rest := by
  simp only [survivors, record, List.zip_cons_cons, List.filter_cons, failed,
    Bool.false_eq_true, if_false]

/-- Without its failing steps a run has the outcomes that the others had. -/
theorem Atomic.record_survivors (atomic : Atomic execute) (state : State) (steps : List Step) :
    record execute state (survivors execute state steps) =
      (record execute state steps).filter Outcome.succeeded := by
  induction steps generalizing state with
  | nil => rfl
  | cons step rest ih =>
      rw [record, List.filter_cons]
      cases result : (execute state step).result with
      | ok answer =>
          have succeeded : (execute state step).succeeded = true := by
            rw [Outcome.succeeded, result]
          rw [survivors_cons_of_succeeded rest succeeded, record, ih, if_pos succeeded]
      | error fault =>
          have failed : (execute state step).succeeded = false := by
            rw [Outcome.succeeded, result]
          obtain ⟨_, unchanged⟩ := atomic state step fault result
          -- The rest runs from the same state whether or not the step is taken.
          rw [survivors_cons_of_failed rest failed, unchanged, ih, failed, if_neg (by decide)]

end Survivors

namespace Procedure

theorem execute_atomic : Atomic execute := by
  intro state step fault failed
  rw [execute_eq_step] at failed ⊢
  unfold State.step at failed ⊢
  cases ended : step.operation? >>= state.run with
  | error fault =>
      exact ⟨rfl, rfl⟩
  | ok reply =>
      rw [ended] at failed
      cases failed

theorem record_execute (state : State) (steps : List Step) :
    record execute state steps = state.outcomes steps := by
  have same : execute = State.step := by
    funext state step
    exact execute_eq_step state step
  rw [same]
  rfl

/-- Carried out action by action, a step that fails prints nothing and changes
nothing. The steps that fail can be deleted from any run: every other one then
succeeds, with the answer, the lines and the state it had. The runs of the
procedures are the runs of the machine. -/
theorem failing_steps_erasable :
    (∀ (state : State) (step : Step) (fault : Fault),
        (execute state step).result = .error fault →
          (execute state step).lines = [] ∧ (execute state step).state = state) ∧
      ∀ (state : State) (steps : List Step),
        record execute state steps = state.outcomes steps ∧
          (∀ outcome ∈ record execute state (survivors execute state steps),
            outcome.succeeded = true) ∧
          record execute state (survivors execute state steps) =
            (record execute state steps).filter Outcome.succeeded := by
  refine ⟨execute_atomic, fun state steps => ⟨record_execute state steps, ?_, ?_⟩⟩
  · intro outcome member
    rw [execute_atomic.record_survivors] at member
    exact (List.mem_filter.mp member).2
  · exact execute_atomic.record_survivors state steps

end Procedure

end WordCalc
