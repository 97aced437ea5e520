import Mathlib.Data.List.Basic
import WordCalc.Proofs.Run

/-!
Registers give back what was stored in them.

Values that are stored one after the other in a register come back in the
opposite order, and then everything is as it was but for the stack, on which they
stand. What else is done in between does not matter, as long as it succeeds,
leaves the stack as it was, and lets that one register alone.
-/

namespace WordCalc

namespace State

def storing (id : Value) (values : List Value) : List Step :=
  values.flatMap fun value => [.run (.push value), .run (.push id), .run (.apply .store)]

def taking (id : Value) (count : Nat) : List Step :=
  (List.replicate count [.run (.push id), .run (.apply .take)]).flatten

private theorem storing_cons (id value : Value) (rest : List Value) :
    storing id (value :: rest) =
      [.run (.push value), .run (.push id), .run (.apply .store)] ++ storing id rest := rfl

private theorem taking_succ (id : Value) (count : Nat) :
    taking id (count + 1) = taking id count ++ [.run (.push id), .run (.apply .take)] := by
  rw [taking, List.replicate_succ', List.flatten_append, List.flatten_singleton]
  rfl

/-- The first value that is stored is the last one that is taken. -/
private theorem storing_taking_cons (id value : Value) (rest : List Value) :
    storing id (value :: rest) ++ taking id (value :: rest).length =
      [.run (.push value), .run (.push id), .run (.apply .store)] ++
        ((storing id rest ++ taking id rest.length) ++ [.run (.push id), .run (.apply .take)]) := by
  rw [storing_cons, List.length_cons, taking_succ, List.append_assoc, List.append_assoc]

private theorem next_store (stack : List Value) (registers : Registers) (radix : Radix)
    (id value : Value) :
    (State.mk (id :: value :: stack) registers radix).next (.apply .store) =
      .ok ⟨stack, registers.push id value, radix⟩ := rfl

/-- Taking undoes storing but for the value on the stack. -/
private theorem next_take (stack : List Value) (registers : Registers) (radix : Radix)
    (id value : Value) :
    (State.mk (id :: stack) (registers.push id value) radix).next (.apply .take) =
      .ok ⟨value :: stack, registers, radix⟩ := by
  simp only [next, afterOperator, Registers.pop_push, Except.map]

theorem yields_storing_taking (id : Value) (values : List Value) (state : State) :
    state.Yields (storing id values ++ taking id values.length) []
      { state with stack := values ++ state.stack } := by
  induction values generalizing state with
  | nil => exact Yields.nil state
  | cons value rest ih =>
      have stored : state.Yields [.run (.push value), .run (.push id), .run (.apply .store)] []
          { state with registers := state.registers.push id value } :=
        .cons rfl (.cons rfl (.of_next (next_store _ _ _ id value)))
      have taken : State.Yields
          { state with stack := rest ++ state.stack
                       registers := state.registers.push id value }
          [.run (.push id), .run (.apply .take)] []
          { state with stack := value :: rest ++ state.stack } :=
        .cons rfl (.of_next (next_take _ _ _ id value))
      rw [storing_taking_cons]
      exact stored.append ((ih _).append taken)

def Uses (id : Value) (state : State) (step : Step) : Prop :=
  state.top? = some id ∧
    (step.operation? = .ok (.apply .store) ∨ step.operation? = .ok (.apply .take))

def LetsAlone (id : Value) (state : State) : List Step → Prop
  | [] => True
  | step :: rest => ¬ Uses id state step ∧ LetsAlone id (state.step step).state rest

instance (id : Value) (state : State) (step : Step) : Decidable (Uses id state step) :=
  inferInstanceAs (Decidable (_ ∧ (_ ∨ _)))

instance decidableLetsAlone (id : Value) :
    (state : State) → (steps : List Step) → Decidable (LetsAlone id state steps)
  | _, [] => inferInstanceAs (Decidable True)
  | state, step :: rest =>
      have := decidableLetsAlone id (state.step step).state rest
      inferInstanceAs (Decidable (_ ∧ _))

private theorem contents_afterOperator {state after : State} {operator : Operator} {id : Value}
    (apart : state.top? = some id → operator ≠ .store ∧ operator ≠ .take)
    (done : state.afterOperator operator = .ok after) :
    after.registers.contents id = state.registers.contents id := by
  revert done
  fun_cases afterOperator state operator with
  | case9 own value rest found =>
      rintro ⟨⟩
      have other : id ≠ own := by
        rintro rfl
        exact (apart (by rw [top?, found, List.head?_cons])).1 rfl
      exact (Registers.contents_push _ own value id).trans (if_neg other)
  | case10 own rest found =>
      cases state.registers.get own <;> rintro ⟨⟩
      rfl
  | case11 own rest found =>
      have other : id ≠ own := by
        rintro rfl
        exact (apart (by rw [top?, found, List.head?_cons])).2 rfl
      rw [Registers.pop]
      cases state.registers.contents own with
      | nil => rintro ⟨⟩
      | cons newest older =>
          rintro ⟨⟩
          exact (Registers.contents_replace _ own id older).trans (if_neg other)
  | case3 | case5 | case17 => rintro ⟨⟩
  | _ =>
      rintro ⟨⟩
      rfl

private theorem contents_step {state : State} {step : Step} {id : Value}
    (apart : ¬ Uses id state step) :
    (state.step step).state.registers.contents id = state.registers.contents id := by
  cases asked : step.operation? with
  | error fault => rw [step_of_unread asked]
  | ok operation =>
      cases done : state.next operation with
      | error fault => rw [step_of_failed asked done]
      | ok after =>
          rw [step_of_done asked done]
          cases operation with
          | push value =>
              cases done
              rfl
          | apply operator =>
              refine contents_afterOperator (fun onTop => ?_) done
              constructor
              · rintro rfl
                exact apart ⟨onTop, .inl asked⟩
              · rintro rfl
                exact apart ⟨onTop, .inr asked⟩

theorem contents_after_of_letsAlone {state : State} {steps : List Step} {id : Value}
    (apart : LetsAlone id state steps) :
    (state.after steps).registers.contents id = state.registers.contents id := by
  induction steps generalizing state with
  | nil => rfl
  | cons step rest ih => exact (ih apart.2).trans (contents_step apart.1)

/-! ### Interrupted runs -/

/-- A block of steps that a register and the stack do not notice. -/
structure Aside (id : Value) (state : State) (block : List Step) : Prop where
  succeeds : state.Succeeds block
  stack : (state.after block).stack = state.stack
  apart : LetsAlone id state block

/-- A run of the given steps with such blocks in front of them, between any two
of them, and behind them. -/
inductive Interrupted (id : Value) : State → List Step → List Step → Prop
  | done {state : State} {block : List Step} :
      Aside id state block → Interrupted id state [] block
  | step {state : State} {block rest run : List Step} {step : Step} :
      Aside id state block →
        Interrupted id ((state.after block).step step).state rest run →
          Interrupted id state (step :: rest) (block ++ step :: run)

structure Sees (id : Value) (stack held : List Value) (state : State) : Prop where
  stack : state.stack = stack
  held : state.registers.contents id = held

theorem Aside.nil (id : Value) (state : State) : Aside id state [] :=
  ⟨(Reaches.nil state).1, rfl, trivial⟩

theorem Aside.sees {id : Value} {stack held : List Value} {state : State} {block : List Step}
    (aside : Aside id state block) (sees : Sees id stack held state) :
    Sees id stack held (state.after block) :=
  ⟨aside.stack.trans sees.stack, (contents_after_of_letsAlone aside.apart).trans sees.held⟩

theorem Interrupted.split {id : Value} {state : State} {first second run : List Step}
    (interrupted : Interrupted id state (first ++ second) run) :
    ∃ front back, run = front ++ back ∧ Interrupted id state first front ∧
      Interrupted id (state.after front) second back := by
  induction first generalizing state run with
  | nil => exact ⟨[], run, rfl, .done (.nil id state), interrupted⟩
  | cons step rest ih =>
      cases interrupted with
      | @step _ block _ run _ aside further =>
          obtain ⟨front, back, rfl, inFront, behind⟩ := ih further
          refine ⟨block ++ step :: front, back, ?_, .step aside inFront, ?_⟩
          · rw [List.append_assoc, List.cons_append]
          · rw [after_append]
            exact behind

/-- However they are interrupted, the steps succeed and lead from one view of
the stack and the register to another. -/
def Leads (id : Value) (stack held : List Value) (steps : List Step)
    (stackAfter heldAfter : List Value) : Prop :=
  ∀ state run, Sees id stack held state → Interrupted id state steps run →
    state.Succeeds run ∧ Sees id stackAfter heldAfter (state.after run)

namespace Leads

variable {id : Value} {stack held stackAfter heldAfter stackEnd heldEnd : List Value}

theorem nil (id : Value) (stack held : List Value) : Leads id stack held [] stack held := by
  intro state run sees interrupted
  cases interrupted with
  | done aside => exact ⟨aside.succeeds, aside.sees sees⟩

theorem append {first second : List Step} (leads : Leads id stack held first stackAfter heldAfter)
    (further : Leads id stackAfter heldAfter second stackEnd heldEnd) :
    Leads id stack held (first ++ second) stackEnd heldEnd := by
  intro state run sees interrupted
  obtain ⟨front, back, rfl, inFront, behind⟩ := interrupted.split
  obtain ⟨succeeds, seesThen⟩ := leads state front sees inFront
  obtain ⟨succeedsToo, seesLast⟩ := further (state.after front) back seesThen behind
  rw [after_append]
  exact ⟨(succeeds_append state front back).mpr ⟨succeeds, succeedsToo⟩, seesLast⟩

theorem cons {operation : Operation} {rest : List Step}
    (takes : ∀ state, Sees id stack held state →
      ∃ after, state.next operation = .ok after ∧ Sees id stackAfter heldAfter after)
    (further : Leads id stackAfter heldAfter rest stackEnd heldEnd) :
    Leads id stack held (.run operation :: rest) stackEnd heldEnd := by
  intro state run sees interrupted
  cases interrupted with
  | @step _ block _ run _ aside behind =>
      obtain ⟨after, done, seesThen⟩ := takes (state.after block) (aside.sees sees)
      obtain ⟨succeeds, reached⟩ := (Yields.of_next done).reaches
      have left : ((state.after block).step (.run operation)).state = after := reached
      rw [left] at behind
      obtain ⟨succeedsToo, seesLast⟩ := further after run seesThen behind
      rw [List.append_cons, after_append, after_append, reached, succeeds_append,
        succeeds_append, after_append, reached]
      exact ⟨⟨⟨aside.succeeds, succeeds⟩, succeedsToo⟩, seesLast⟩

end Leads

private theorem takes_push {id : Value} {stack held : List Value} (value : Value) (state : State)
    (sees : Sees id stack held state) :
    ∃ after, state.next (.push value) = .ok after ∧ Sees id (value :: stack) held after :=
  ⟨{ state with stack := value :: state.stack }, rfl, congrArg _ sees.stack, sees.held⟩

private theorem takes_store {id value : Value} {stack held : List Value} (state : State)
    (sees : Sees id (id :: value :: stack) held state) :
    ∃ after, state.next (.apply .store) = .ok after ∧ Sees id stack (value :: held) after := by
  obtain ⟨_, registers, radix⟩ := state
  obtain ⟨rfl, rfl⟩ := sees
  refine ⟨_, next_store stack registers radix id value, rfl, ?_⟩
  rw [Registers.contents_push, if_pos rfl]

private theorem takes_take {id value : Value} {stack held : List Value} (state : State)
    (sees : Sees id (id :: stack) (value :: held) state) :
    ∃ after, state.next (.apply .take) = .ok after ∧ Sees id (value :: stack) held after := by
  obtain ⟨found, registers, radix⟩ := state
  obtain rfl : found = id :: stack := sees.stack
  have holds : registers.contents id = value :: held := sees.held
  obtain ⟨older, newest, rfl, contents⟩ :=
    Registers.exists_push_of_contents (holds ▸ List.cons_ne_nil value held)
  obtain ⟨rfl, rfl⟩ := List.cons.inj (holds.symm.trans contents)
  exact ⟨_, next_take stack older radix id value, rfl, rfl⟩

theorem leads_storing_taking (id : Value) (values stack held : List Value) :
    Leads id stack held (storing id values ++ taking id values.length) (values ++ stack) held := by
  induction values generalizing held with
  | nil => exact .nil id stack held
  | cons value rest ih =>
      have stored : Leads id stack held
          [.run (.push value), .run (.push id), .run (.apply .store)] stack (value :: held) :=
        .cons (takes_push value) (.cons (takes_push id) (.cons takes_store (.nil id _ _)))
      have taken : Leads id (rest ++ stack) (value :: held)
          [.run (.push id), .run (.apply .take)] (value :: rest ++ stack) held :=
        .cons (takes_push id) (.cons takes_take (.nil id _ _))
      rw [storing_taking_cons]
      exact stored.append ((ih (value :: held)).append taken)

/-- Values that are stored in a register are taken from it in the opposite
order: all steps succeed without printing anything, and afterwards the values
stand on the stack, the first one on top, and nothing else has changed. If such
a run is interrupted by blocks that succeed, leave the stack as it was and let
the register alone, then it succeeds all the same, with the same stack and the
same contents of that register. To fetch a value is to take it, duplicate it and
store the copy. -/
theorem stored_values_come_back (state : State) (id : Value) :
    (∀ values : List Value,
      let steps := storing id values ++ taking id values.length
      state.Yields steps [] { state with stack := values ++ state.stack } ∧
        ∀ run, Interrupted id state steps run →
          state.Succeeds run ∧
            (state.after run).stack = values ++ state.stack ∧
            (state.after run).registers.contents id = state.registers.contents id) ∧
      (state.top? = some id → state.registers.contents id ≠ [] →
        ∃ final, state.Yields [.run (.apply .fetch)] [] final ∧
          state.Yields [.run (.apply .take), .run (.apply .duplicate), .run (.push id),
            .run (.apply .store)] [] final) := by
  constructor
  · intro values steps
    refine ⟨yields_storing_taking id values state, ?_⟩
    intro run interrupted
    obtain ⟨succeeds, sees⟩ := leads_storing_taking id values state.stack
      (state.registers.contents id) state run ⟨rfl, rfl⟩ interrupted
    exact ⟨succeeds, sees.stack, sees.held⟩
  · intro onTop occupied
    obtain ⟨stack, registers, radix⟩ := state
    obtain ⟨rest, rfl⟩ := List.head?_eq_some_iff.mp onTop
    obtain ⟨older, newest, rfl, contents⟩ := Registers.exists_push_of_contents occupied
    have fetched : (State.mk (id :: rest) (older.push id newest) radix).next (.apply .fetch) =
        .ok ⟨newest :: rest, older.push id newest, radix⟩ := by
      simp only [next, afterOperator, Registers.get, contents, Except.map]
    exact ⟨_, .of_next fetched,
      .cons (next_take rest older radix id newest)
        (.cons rfl (.cons rfl (.of_next (next_store _ older radix id newest))))⟩

/-- Between the steps the radix is changed, the stack is printed, and a register
of the other signedness is used; the register itself is looked at. -/
theorem stored_values_come_back_interrupted :
    let id : Value := ⟨.unsigned, 5⟩
    let other : Value := ⟨.signed, 5⟩
    let value : Value := ⟨.unsigned, 1⟩
    let state : State := ⟨[⟨.signed, 9⟩], Registers.empty.push id ⟨.unsigned, 7⟩, .decimal⟩
    let run : List Step :=
      [.run (.push value), .token "16", .token "o", .token "f", .run (.push id),
        .run (.apply .store), .run (.push other), .run (.push other), .run (.apply .store),
        .run (.push id), .token "l", .token "n", .run (.push id), .run (.apply .take)]
    Interrupted id state (storing id [value] ++ taking id 1) run ∧
      state.Succeeds run ∧ (state.after run).stack = [value, ⟨.signed, 9⟩] ∧
      (state.after run).registers.contents id = [⟨.unsigned, 7⟩] := by
  intro id other value state run
  let stored : State := state.after [.run (.push value)]
  let output : List Step := [.token "16", .token "o", .token "f"]
  let full : State := (stored.after output).after [.run (.push id), .run (.apply .store)]
  let elsewhere : List Step :=
    [.run (.push other), .run (.push other), .run (.apply .store), .run (.push id), .token "l",
      .token "n"]
  have outputAside : Aside id stored output :=
    ⟨by decide +kernel, by decide +kernel, by decide +kernel⟩
  have elsewhereAside : Aside id full elsewhere :=
    ⟨by decide +kernel, by decide +kernel, by decide +kernel⟩
  have interrupted : Interrupted id state (storing id [value] ++ taking id 1) run :=
    .step (.nil _ _) (.step outputAside (.step (.nil _ _) (.step elsewhereAside
      (.step (.nil _ _) (.done (.nil _ _))))))
  obtain ⟨returned, _⟩ := stored_values_come_back state id
  obtain ⟨succeeds, stack, held⟩ := (returned [value]).2 run interrupted
  exact ⟨interrupted, succeeds, stack, held⟩

end State

end WordCalc
