import WordCalc.Proofs.Denotation
import WordCalc.Proofs.Operands
import WordCalc.Proofs.Run

/-!
Output never feeds back into evaluation.

The radix decides how values are printed, and nothing that the machine computes
depends on it. So a run in another radix is the same run printed differently,
until a token sets the radix and the difference is gone. Tokens that only print
can be left out of a run.
-/

namespace WordCalc

namespace State

def inRadix (state : State) (radix : Radix) : State :=
  { state with radix }

/-- The radix that a token sets: the one that the value on top names, if the
token is an `o` that succeeds. -/
def setting? (state : State) (token : String) : Option Radix :=
  if token = "o" ∧ (state.step (.token token)).succeeded = true then
    state.top?.bind Radix.ofValue?
  else none

def settings (state : State) : List String → List Radix
  | [] => []
  | token :: rest =>
      (state.setting? token).toList ++ (state.step (.token token)).state.settings rest

/-- An operator does in another radix what it does in this one. The other radix
stays in force unless the operator names one. -/
private theorem afterOperator_inRadix (state : State) (radix : Radix) (operator : Operator) :
    (state.inRadix radix).afterOperator operator =
      (state.afterOperator operator).map fun after =>
        after.inRadix ((operator.naming? (state.stack.take operator.operands)).getD radix) := by
  by_cases clears : operator = .clear
  · subst clears
    rfl
  · by_cases enough : operator.operands ≤ state.stack.length
    · have enoughThere : operator.operands ≤ (state.inRadix radix).stack.length := enough
      rw [afterOperator_of_enough clears enough, afterOperator_of_enough clears enoughThere]
      change Except.map _ (operator.effect state.registers (state.stack.take operator.operands)) = _
      cases operator.effect state.registers (state.stack.take operator.operands) <;> rfl
    · have short := Nat.lt_of_not_le enough
      have shortThere : (state.inRadix radix).stack.length < operator.operands := short
      rw [afterOperator_of_short short, afterOperator_of_short shortThere]
      rfl

private theorem setting?_of_not_asked (state : State) {token : String}
    (notAsked : (Step.token token).operation? ≠ .ok (.apply .setRadix)) :
    state.setting? token = none := by
  rw [setting?, if_neg]
  intro both
  exact notAsked ((Operation.parse_eq_apply_iff_eq token .setRadix).mpr both.1)

private theorem setting?_of_failed {state : State} {token : String}
    (failed : (state.step (.token token)).succeeded = false) : state.setting? token = none := by
  rw [setting?, failed, if_neg fun both => Bool.false_ne_true both.2]

private theorem setting?_of_done {state after : State} {token : String} {operator : Operator}
    (asked : (Step.token token).operation? = .ok (.apply operator))
    (done : state.next (.apply operator) = .ok after) :
    state.setting? token = operator.naming? (state.stack.take operator.operands) := by
  by_cases sets : operator = .setRadix
  · subst sets
    have succeeded : (state.step (.token token)).succeeded = true := by
      rw [step_of_done asked done]
      rfl
    rw [setting?, if_pos ⟨(Operation.parse_eq_apply_iff_eq token .setRadix).mp asked, succeeded⟩]
    obtain ⟨stack, registers, radix⟩ := state
    cases stack with
    | nil => rfl
    | cons value rest => rfl
  · rw [setting?_of_not_asked state]
    · cases operator with
      | setRadix => exact absurd rfl sets
      | _ => rfl
    · rw [asked]
      rintro ⟨⟩
      exact sets rfl

private theorem step_inRadix (state : State) (radix : Radix) (token : String) :
    ∃ values : List Value, (state.step (.token token)).lines = values.map state.radix.format ∧
      (state.inRadix radix).step (.token token) =
        { result := (state.step (.token token)).result
          lines := values.map radix.format
          state := (state.step (.token token)).state.inRadix
            ((state.setting? token).getD radix) } := by
  cases asked : (Step.token token).operation? with
  | error fault =>
      have failed : state.step (.token token) = { result := .error fault, lines := [], state } :=
        step_of_unread asked
      rw [setting?_of_failed (by rw [failed]; rfl), failed, step_of_unread asked]
      exact ⟨[], rfl, rfl⟩
  | ok operation =>
      cases operation with
      | push value =>
          have unset : state.setting? token = none :=
            setting?_of_not_asked state (by rw [asked]; rintro ⟨⟩)
          rw [unset, step_of_done asked rfl, step_of_done asked rfl]
          exact ⟨[], rfl, rfl⟩
      | apply operator =>
          have there := afterOperator_inRadix state radix operator
          cases ran : state.afterOperator operator with
          | error fault =>
              rw [ran] at there
              have failed : state.step (.token token) =
                  { result := .error fault, lines := [], state } := step_of_failed asked ran
              rw [setting?_of_failed (by rw [failed]; rfl), failed, step_of_failed asked there]
              exact ⟨[], rfl, rfl⟩
          | ok after =>
              rw [ran] at there
              rw [setting?_of_done asked ran, step_of_done asked ran, step_of_done asked there]
              exact ⟨state.shown (.apply operator), rfl, rfl⟩

/-! ### Runs -/

/-- A run in another radix leaves the same state but for the radix, which is the
last one that was set. -/
theorem after_inRadix (state : State) (radix : Radix) (tokens : List String) :
    (state.inRadix radix).after (tokens.map .token) =
      (state.after (tokens.map .token)).inRadix ((state.settings tokens).getLastD radix) := by
  induction tokens generalizing state radix with
  | nil => rfl
  | cons token rest ih =>
      obtain ⟨_, _, stepped⟩ := step_inRadix state radix token
      rw [List.map_cons, after, stepped, ih, settings, after]
      cases state.setting? token with
      | none => rfl
      | some set => rw [Option.toList_some, List.singleton_append, List.getLastD_cons]; rfl

theorem radix_after (state : State) (tokens : List String) :
    (state.after (tokens.map .token)).radix = (state.settings tokens).getLastD state.radix :=
  congrArg radix (after_inRadix state state.radix tokens)

private theorem setting?_inRadix (state : State) (radix : Radix) (token : String) :
    (state.inRadix radix).setting? token = state.setting? token := by
  obtain ⟨_, _, stepped⟩ := step_inRadix state radix token
  rw [setting?, setting?, stepped]
  rfl

theorem settings_inRadix (state : State) (radix : Radix) (tokens : List String) :
    (state.inRadix radix).settings tokens = state.settings tokens := by
  induction tokens generalizing state radix with
  | nil => rfl
  | cons token rest ih =>
      obtain ⟨_, _, stepped⟩ := step_inRadix state radix token
      rw [settings, settings, setting?_inRadix, stepped, ih]

def onlyPrints (token : String) : Bool :=
  token == "p" || token == "f"

private theorem step_of_onlyPrints {token : String} (prints : (!onlyPrints token) = false)
    (state : State) : (state.step (.token token)).state = state := by
  simp only [onlyPrints, Bool.not_eq_false', Bool.or_eq_true, beq_iff_eq] at prints
  rcases prints with rfl | rfl
  · have asked : (Step.token "p").operation? = .ok (.apply .printTop) :=
      (Operation.parse_eq_apply_iff_eq "p" .printTop).mpr rfl
    have done : state.next (.apply .printTop) = .ok state := rfl
    rw [step_of_done asked done]
  · have asked : (Step.token "f").operation? = .ok (.apply .printStack) :=
      (Operation.parse_eq_apply_iff_eq "f" .printStack).mpr rfl
    have done : state.next (.apply .printStack) = .ok state := rfl
    rw [step_of_done asked done]

/-- A token comes to the same in two states, and prints the same values in
both, each time in the radix of the state. -/
structure SameButLayout (left right : State) (token : String) : Prop where
  result : (left.step (.token token)).result = (right.step (.token token)).result
  stack : (left.step (.token token)).state.stack = (right.step (.token token)).state.stack
  registers :
    (left.step (.token token)).state.registers = (right.step (.token token)).state.registers
  lines : ∃ values : List Value,
    (left.step (.token token)).lines = values.map left.radix.format ∧
      (right.step (.token token)).lines = values.map right.radix.format

/-- Two runs that start in different radixes differ in the layout of their
lines at most. In either run the radix in force is the one that the last
successful `o` named, and the one of the start before there was any; after one
the runs are the same in every respect. The tokens `p` and `f` can be deleted
from a run: it ends in the same state, and all other tokens have the outcomes
that they had. -/
theorem output_feeds_nothing_back (stack : List Value) (registers : Registers)
    (leftRadix rightRadix : Radix) (tokens : List String) :
    let left : State := { stack, registers, radix := leftRadix }
    let right : State := { stack, registers, radix := rightRadix }
    let kept := tokens.filter fun token => !onlyPrints token
    (∀ before token rest, tokens = before ++ token :: rest →
      let here := left.after (before.map .token)
      let there := right.after (before.map .token)
      SameButLayout here there token ∧
        left.settings before = right.settings before ∧
        here.radix = (left.settings before).getLastD leftRadix ∧
        there.radix = (right.settings before).getLastD rightRadix ∧
        (left.settings before ≠ [] →
          here.outcomes ((token :: rest).map .token) =
            there.outcomes ((token :: rest).map .token))) ∧
      left.after (kept.map .token) = left.after (tokens.map .token) ∧
      left.outcomes (kept.map .token) =
        ((tokens.zip (left.outcomes (tokens.map .token))).filter fun taken =>
          !onlyPrints taken.1).map Prod.snd := by
  intro left right kept
  refine ⟨?_, after_filter (fun _ => step_of_onlyPrints) left tokens,
    outcomes_filter (fun _ => step_of_onlyPrints) left tokens⟩
  intro before token rest _ here there
  have sameSettings : right.settings before = left.settings before :=
    settings_inRadix left rightRadix before
  have thereAsHere : there = here.inRadix there.radix := by
    have moved := after_inRadix left rightRadix before
    exact moved.trans (congrArg here.inRadix (congrArg radix moved).symm)
  refine ⟨?_, sameSettings.symm, radix_after left before, radix_after right before, ?_⟩
  · obtain ⟨values, linesHere, stepped⟩ := step_inRadix here there.radix token
    rw [← thereAsHere] at stepped
    exact
      { result := by rw [stepped]
        stack := by rw [stepped]; rfl
        registers := by rw [stepped]; rfl
        lines := ⟨values, linesHere, by rw [stepped]⟩ }
  · intro someSet
    have sameRadix : there.radix = here.radix := by
      rw [radix_after right before, radix_after left before, sameSettings]
      obtain ⟨first, others, set⟩ := List.exists_cons_of_ne_nil someSet
      rw [set, List.getLastD_cons, List.getLastD_cons]
    rw [thereAsHere, sameRadix]
    rfl

end State

end WordCalc
