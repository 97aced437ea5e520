import WordCalc.Proofs.Run

/-!
Looking at values, and taking them away one by one.

The stack and the registers can be printed as a whole, which changes nothing, or
value by value, each of which is gone once it is printed. The whole is printed
with the value that would go first at its end. So the two ways print the same
lines in opposite order.
-/

namespace WordCalc

namespace State

def dropping (count : Nat) : List Step :=
  List.replicate count (.run (.apply .dropTop))

def draining (id : Value) (count : Nat) : List Step :=
  (List.replicate count [.run (.push id), .run (.apply .take), .run (.apply .dropTop)]).flatten

theorem yields_dropping (stack : List Value) (registers : Registers) (radix : Radix) :
    (State.mk stack registers radix).Yields (dropping stack.length) (stack.map radix.format)
      ⟨[], registers, radix⟩ := by
  induction stack with
  | nil => exact Yields.nil _
  | cons top rest ih => exact Yields.cons rfl ih

theorem yields_draining (id : Value) (held stack : List Value) (registers : Registers)
    (radix : Radix) (holds : registers.contents id = held) :
    (State.mk stack registers radix).Yields (draining id held.length) (held.map radix.format)
      ⟨stack, registers.replace id [], radix⟩ := by
  induction held generalizing registers with
  | nil =>
      have vacant : registers.replace id [] = registers := by
        rw [← holds, Registers.replace_contents]
      rw [vacant]
      exact Yields.nil _
  | cons newest older ih =>
      have left : (registers.replace id older).contents id = older := by
        rw [Registers.contents_replace, if_pos rfl]
      have taken : (State.mk (id :: stack) registers radix).next (.apply .take) =
          .ok ⟨newest :: stack, registers.replace id older, radix⟩ := by
        simp only [next, afterOperator, Registers.pop, holds, Except.map]
      have further := ih (registers.replace id older) left
      rw [Registers.replace_replace] at further
      exact Yields.cons rfl (.cons taken (.cons rfl further))

private theorem firstFails_take (id : Value) (stack : List Value) {registers : Registers}
    (radix : Radix) (vacant : registers.contents id = []) :
    (State.mk stack registers radix).FirstFails [.run (.push id), .run (.apply .take)]
      (.emptyRegister id) := by
  have pushed : (State.mk stack registers radix).next (.push id) =
      .ok ⟨id :: stack, registers, radix⟩ := rfl
  have failed : (State.mk (id :: stack) registers radix).next (.apply .take) =
      .error (.emptyRegister id) := by
    simp only [next, afterOperator, Registers.pop, vacant, Except.map]
  refine (Yields.of_next pushed).reaches.firstFails (.of_step ?_)
  rw [step_of_failed rfl failed]

/-- The stack is printed bottom first, and dropping everything prints the same
lines from the last one to the first; then nothing is left to be dropped. The
value on top is the last of these lines, and there is no line if there is no
value. In the same way a register is printed oldest value first, and taking and
dropping all its values prints the lines from the last one to the first; then
nothing is left to be taken. Only dropping and taking change anything. -/
theorem whole_prints_reverse_removals (state : State) :
    (let lines := state.stack.reverse.map state.radix.format
      let bare : State := { state with stack := [] }
      state.Yields [.run (.apply .printStack)] lines state ∧
        state.Yields (dropping state.stack.length) lines.reverse bare ∧
        bare.FirstFails [.run (.apply .dropTop)] .emptyStack ∧
        state.Yields [.run (.apply .printTop)] lines.getLast?.toList state) ∧
      ∀ id,
        let lines := (state.registers.contents id).reverse.map state.radix.format
        let drained : State := { state with registers := state.registers.replace id [] }
        state.Yields [.run (.push id), .run (.apply .printRegister)] lines state ∧
          state.Yields (draining id (state.registers.contents id).length) lines.reverse drained ∧
          drained.FirstFails [.run (.push id), .run (.apply .take)] (.emptyRegister id) := by
  obtain ⟨stack, registers, radix⟩ := state
  constructor
  · intro lines bare
    have reversed : lines.reverse = stack.map radix.format := by
      rw [← List.map_reverse, List.reverse_reverse]
    have last : lines.getLast?.toList = stack.head?.toList.map radix.format := by
      rw [List.getLast?_map, List.getLast?_reverse, Option.toList_map]
    rw [reversed, last]
    exact ⟨.of_next rfl, yields_dropping stack registers radix, .of_step rfl, .of_next rfl⟩
  · intro id lines drained
    have reversed : lines.reverse = (registers.contents id).map radix.format := by
      rw [← List.map_reverse, List.reverse_reverse]
    have vacant : (registers.replace id []).contents id = [] := by
      rw [Registers.contents_replace, if_pos rfl]
    rw [reversed]
    exact ⟨.cons rfl (.of_next rfl), yields_draining id _ stack registers radix rfl,
      firstFails_take id stack radix vacant⟩

end State

end WordCalc
