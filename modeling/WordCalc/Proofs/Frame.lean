import WordCalc.Proofs.Denotation
import WordCalc.Proofs.Operands
import WordCalc.Proofs.Run

/-!
Values underneath a stack are left alone.

Only two operators deal with a whole stack. A run without them, in which every
operator finds its operands, goes the same way with more values underneath, and
leaves these values where they are. Its other faults are the same as well.
-/

namespace WordCalc

/-- The state with more values underneath those of its stack. -/
def State.onBase (state : State) (base : List Value) : State :=
  { state with stack := state.stack ++ base }

def Outcome.onBase (outcome : Outcome) (base : List Value) : Outcome :=
  { outcome with state := outcome.state.onBase base }

namespace State

section Base

variable (base : List Value) {state : State}

private theorem afterOperator_onBase {operator : Operator} (notClear : operator ≠ .clear)
    (fits : state.afterOperator operator ≠ .error .emptyStack) :
    (state.onBase base).afterOperator operator =
      (state.afterOperator operator).map fun after => after.onBase base := by
  have enough : operator.operands ≤ state.stack.length := by
    by_contra short
    exact fits (afterOperator_of_short (Nat.lt_of_not_le short))
  have enoughMore : operator.operands ≤ (state.onBase base).stack.length := by
    rw [onBase, List.length_append]
    exact Nat.le_add_right_of_le enough
  have sameOperands : (state.stack ++ base).take operator.operands =
      state.stack.take operator.operands := List.take_append_of_le_length enough
  have restOnBase : (state.stack ++ base).drop operator.operands =
      state.stack.drop operator.operands ++ base := List.drop_append_of_le_length enough
  rw [afterOperator_of_enough notClear enough, afterOperator_of_enough notClear enoughMore]
  simp only [onBase, sameOperands]
  cases operator.effect state.registers (state.stack.take operator.operands) with
  | error fault => rfl
  | ok effect =>
      simp only [Except.map, withEffect, sameOperands, restOnBase, List.append_assoc]

private theorem next_onBase {operation : Operation} (notClear : operation ≠ .apply .clear)
    (fits : state.next operation ≠ .error .emptyStack) :
    (state.onBase base).next operation =
      (state.next operation).map fun after => after.onBase base := by
  cases operation with
  | push value => rfl
  | apply operator =>
      refine afterOperator_onBase base ?_ fits
      rintro rfl
      exact notClear rfl

private theorem shown_onBase {operation : Operation} (notDump : operation ≠ .apply .printStack)
    (notVacuous : operation = .apply .printTop → state.stack ≠ [])
    (fits : state.next operation ≠ .error .emptyStack) :
    (state.onBase base).shown operation = state.shown operation := by
  obtain ⟨stack, registers, radix⟩ := state
  cases operation with
  | push value => rfl
  | apply operator =>
      cases operator with
      | printStack => exact absurd rfl notDump
      | printTop =>
          obtain ⟨value, rest, rfl⟩ := List.exists_cons_of_ne_nil (notVacuous rfl)
          rfl
      | dropTop | printRegister =>
          cases stack with
          | nil => exact absurd rfl fits
          | cons value rest => rfl
      | _ => rfl

/-- The step does not deal with the whole stack, and finds the values it needs. -/
structure StaysAbove (state : State) (step : Step) : Prop where
  notClear : step.operation? ≠ .ok (.apply .clear)
  notDump : step.operation? ≠ .ok (.apply .printStack)
  notVacuous : step.operation? = .ok (.apply .printTop) → state.stack ≠ []
  fits : (state.step step).result ≠ .error .emptyStack

theorem step_onBase {step : Step} (above : StaysAbove state step) :
    (state.onBase base).step step = (state.step step).onBase base := by
  cases asked : step.operation? with
  | error fault => rw [step_of_unread asked, step_of_unread asked]; rfl
  | ok operation =>
      have notClear : operation ≠ .apply .clear := fun same =>
        above.notClear (by rw [asked, same])
      have notDump : operation ≠ .apply .printStack := fun same =>
        above.notDump (by rw [asked, same])
      have notVacuous : operation = .apply .printTop → state.stack ≠ [] := fun same =>
        above.notVacuous (by rw [asked, same])
      have fits : state.next operation ≠ .error .emptyStack := fun short =>
        above.fits (by rw [step_of_failed asked short])
      have moved := next_onBase base notClear fits
      cases done : state.next operation with
      | error fault =>
          rw [done] at moved
          rw [step_of_failed asked done, step_of_failed asked moved]
          rfl
      | ok after =>
          rw [done] at moved
          rw [step_of_done asked done, step_of_done asked moved,
            shown_onBase base notDump notVacuous fits]
          rfl

end Base

/-- Values underneath change nothing in a run of tokens that has no `c` and no
`f`, in which no step runs out of operands and no `p` finds the stack empty.
Step by step there are the same answers, faults and lines, and the same state
but for these values, which stay where they are. -/
theorem outcomes_onBase {state : State} {tokens : List String}
    (noClear : "c" ∉ tokens) (noDump : "f" ∉ tokens)
    (noUnderflow : ∀ outcome ∈ state.outcomes (tokens.map .token),
      outcome.result ≠ .error .emptyStack)
    (noVacuousPrint : ∀ before rest, tokens = before ++ "p" :: rest →
      (state.after (before.map .token)).stack ≠ [])
    (base : List Value) :
    (state.onBase base).outcomes (tokens.map .token) =
      (state.outcomes (tokens.map .token)).map fun outcome => outcome.onBase base := by
  induction tokens generalizing state with
  | nil => rfl
  | cons token rest ih =>
      rw [List.map_cons, outcomes_cons] at noUnderflow
      have above : StaysAbove state (.token token) :=
        { notClear := fun asked => noClear (by
            rw [(Operation.parse_eq_apply_iff_eq token _).mp asked]
            exact List.mem_cons_self)
          notDump := fun asked => noDump (by
            rw [(Operation.parse_eq_apply_iff_eq token _).mp asked]
            exact List.mem_cons_self)
          notVacuous := fun asked => noVacuousPrint [] rest (by
            rw [(Operation.parse_eq_apply_iff_eq token _).mp asked]
            rfl)
          fits := noUnderflow _ List.mem_cons_self }
      have further := ih (List.not_mem_of_not_mem_cons noClear)
        (List.not_mem_of_not_mem_cons noDump)
        (fun outcome member => noUnderflow outcome (List.mem_cons_of_mem _ member))
        (fun before behind same => noVacuousPrint (token :: before) behind (by
          rw [same, List.cons_append]))
      rw [List.map_cons, outcomes_cons, outcomes_cons, List.map_cons, step_onBase base above]
      exact congrArg (List.cons _) further

/-- A run that meets every other fault on its way. -/
theorem outcomes_onBase_with_faults :
    let tokens := ["6", "0", "/", "p", "zz", "3", "r", "L", "n", "5", "o", "-"]
    let base : List Value := [⟨.unsigned, 9⟩, ⟨.signed, 2⟩]
    (initial.outcomes (tokens.map .token)).filterMap Outcome.fault? =
        [.zeroDivisor, .invalidInput "zz", .emptyRegister ⟨.unsigned, 0⟩,
          .badRadix ⟨.unsigned, 5⟩] ∧
      (initial.onBase base).outcomes (tokens.map .token) =
        (initial.outcomes (tokens.map .token)).map fun outcome => outcome.onBase base := by
  refine ⟨by decide +kernel, outcomes_onBase (by decide) (by decide) (by decide +kernel) ?_ _⟩
  intro before rest same
  have here : before = ["6", "0", "/"] ∧ rest = ["zz", "3", "r", "L", "n", "5", "o", "-"] := by
    simpa [List.cons_eq_append_iff] using same
  rw [here.1]
  decide +kernel

end State

end WordCalc
