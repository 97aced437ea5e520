import Mathlib.Data.List.Forall2
import WordCalc.Proofs.Denotation
import WordCalc.Proofs.Operands
import WordCalc.Proofs.Run

/-!
Runs that are blind to signedness.

Division, remainder and right shifts read their operands as numbers, and
registers are found by values with their signedness. All other operators look at
bits alone. Without those, two machines whose stacks agree bit by bit go on
agreeing, fail together, and print the same bits.
-/

namespace WordCalc

def Value.SameBits (left right : Value) : Prop :=
  left.bits = right.bits

/-- Both fail for one kind of fault, or both succeed and their results are
related. -/
inductive FailAlike {α : Type} (related : α → α → Prop) : Except Fault α → Except Fault α → Prop
  | error {left right : Fault} :
      left.kind = right.kind → FailAlike related (.error left) (.error right)
  | ok {left right : α} : related left right → FailAlike related (.ok left) (.ok right)

theorem FailAlike.map {α β : Type} {related : α → α → Prop} {relatedToo : β → β → Prop}
    {left right : Except Fault α} (alike : FailAlike related left right) {f g : α → β}
    (keeps : ∀ one other, related one other → relatedToo (f one) (g other)) :
    FailAlike relatedToo (left.map f) (right.map g) := by
  cases alike with
  | error sameKind => exact .error sameKind
  | ok result => exact .ok (keeps _ _ result)

/-- What an operator does to the bits of its operands, if it does the same for
all signednesses. -/
def BinaryOp.onBits? : BinaryOp → Option (BitVec 64 → BitVec 64 → BitVec 64)
  | .add => some (· + ·)
  | .subtract => some (· - ·)
  | .multiply => some (· * ·)
  | .power => some fun word exponent => powBits word 32 (exponent.setWidth 32).toNat
  | .and => some (· &&& ·)
  | .or => some (· ||| ·)
  | .xor => some (· ^^^ ·)
  | .shiftLeft => some fun word count => word <<< shiftPlaces count
  | .divide => none
  | .remainder => none
  | .shiftRight => none

theorem BinaryOp.apply?_of_onBits? {operator : BinaryOp}
    {combined : BitVec 64 → BitVec 64 → BitVec 64} (blind : operator.onBits? = some combined)
    (left right : Value) :
    ∃ value, operator.apply? left right = some value ∧
      value.bits = combined left.bits right.bits := by
  cases operator with
  | divide | remainder | shiftRight => cases blind
  | _ =>
      cases blind
      exact ⟨_, rfl, rfl⟩

theorem UnaryOp.apply_sameBits (operator : UnaryOp) {left right : Value}
    (same : left.SameBits right) : (operator.apply left).SameBits (operator.apply right) := by
  cases operator with
  | complement => exact congrArg (~~~ ·) same
  | toUnsigned => exact same
  | toSigned => exact same

theorem Radix.ofValue?_of_sameBits {left right : Value} (same : left.SameBits right) :
    Radix.ofValue? left = Radix.ofValue? right := by
  unfold Radix.ofValue? Value.low32
  rw [same]

namespace Operator

def signBlind : Operator → Bool
  | .binary operator => operator.onBits?.isSome
  | .store => false
  | .fetch => false
  | .take => false
  | .printRegister => false
  | _ => true

def Effect.SameBits (left right : Effect) : Prop :=
  List.Forall₂ Value.SameBits left.results right.results

private theorem sameBits_of_one {left right : List Value}
    (same : List.Forall₂ Value.SameBits left right) (one : left.length = 1) :
    ∃ operand other, left = [operand] ∧ right = [other] ∧ operand.SameBits other := by
  obtain ⟨operand, rfl⟩ := List.length_eq_one_iff.mp one
  cases same with
  | cons sameOperand none =>
      cases none
      exact ⟨operand, _, rfl, rfl, sameOperand⟩

private theorem sameBits_of_two {left right : List Value}
    (same : List.Forall₂ Value.SameBits left right) (two : left.length = 2) :
    ∃ upper lower otherUpper otherLower, left = [upper, lower] ∧
      right = [otherUpper, otherLower] ∧ upper.SameBits otherUpper ∧
        lower.SameBits otherLower := by
  obtain ⟨upper, lower, rfl⟩ := List.length_eq_two.mp two
  cases same with
  | cons sameUpper rest =>
      obtain ⟨_, otherLower, only, rfl, sameLower⟩ := sameBits_of_one rest rfl
      cases only
      exact ⟨upper, lower, _, otherLower, rfl, rfl, sameUpper, sameLower⟩

theorem effect_alike {operator : Operator} (blind : operator.signBlind = true)
    {left right : List Value} (same : List.Forall₂ Value.SameBits left right)
    (counted : left.length = operator.operands) (leftRegisters rightRegisters : Registers) :
    FailAlike Effect.SameBits (operator.effect leftRegisters left)
      (operator.effect rightRegisters right) := by
  cases operator with
  | store | fetch | take | printRegister => cases blind
  | printTop | printStack | clear | quit => exact .ok same
  | unary operator =>
      obtain ⟨operand, other, rfl, rfl, sameOperand⟩ := sameBits_of_one same counted
      exact .ok (.cons (operator.apply_sameBits sameOperand) .nil)
  | binary operator =>
      obtain ⟨right, left, otherRight, otherLeft, rfl, rfl, sameRight, sameLeft⟩ :=
        sameBits_of_two same counted
      obtain ⟨combined, onBits⟩ := Option.isSome_iff_exists.mp blind
      obtain ⟨value, applied, bits⟩ := BinaryOp.apply?_of_onBits? onBits left right
      obtain ⟨other, otherApplied, otherBits⟩ :=
        BinaryOp.apply?_of_onBits? onBits otherLeft otherRight
      simp only [effect, applied, otherApplied]
      refine .ok (.cons ?_ .nil)
      rw [Value.SameBits, bits, otherBits, sameLeft, sameRight]
  | setRadix =>
      obtain ⟨value, other, rfl, rfl, sameValue⟩ := sameBits_of_one same counted
      simp only [effect, Radix.ofValue?_of_sameBits sameValue]
      cases Radix.ofValue? other with
      | none => exact .error rfl
      | some radix => exact .ok .nil
  | dropTop =>
      obtain ⟨value, other, rfl, rfl, _⟩ := sameBits_of_one same counted
      exact .ok .nil
  | duplicate =>
      obtain ⟨value, other, rfl, rfl, sameValue⟩ := sameBits_of_one same counted
      exact .ok (.cons sameValue (.cons sameValue .nil))
  | swap =>
      obtain ⟨upper, lower, otherUpper, otherLower, rfl, rfl, sameUpper, sameLower⟩ :=
        sameBits_of_two same counted
      exact .ok (.cons sameLower (.cons sameUpper .nil))

theorem naming?_of_sameBits (operator : Operator) {left right : List Value}
    (same : List.Forall₂ Value.SameBits left right) :
    operator.naming? left = operator.naming? right := by
  cases operator with
  | setRadix =>
      rcases same with _ | ⟨sameValue, _ | _⟩
      · rfl
      · exact Radix.ofValue?_of_sameBits sameValue
      · rfl
  | _ => rfl

end Operator

namespace State

/-- The states agree on the radix and, value by value, on the bits of the stack.
Their registers may hold anything. -/
structure SameBits (left right : State) : Prop where
  stack : List.Forall₂ Value.SameBits left.stack right.stack
  radix : left.radix = right.radix

theorem withEffect_sameBits (operator : Operator) {left right : State}
    (same : left.SameBits right) {effect other : Operator.Effect}
    (sameResults : effect.SameBits other) :
    (left.withEffect operator effect).SameBits (right.withEffect operator other) := by
  have sameOperands := List.forall₂_take operator.operands same.stack
  constructor
  · exact List.rel_append sameResults (List.forall₂_drop _ same.stack)
  · simp only [withEffect, Operator.naming?_of_sameBits operator sameOperands, same.radix]

theorem afterOperator_alike {operator : Operator} (blind : operator.signBlind = true)
    {left right : State} (same : left.SameBits right) :
    FailAlike SameBits (left.afterOperator operator) (right.afterOperator operator) := by
  have sameDepth : left.stack.length = right.stack.length := same.stack.length_eq
  by_cases clears : operator = .clear
  · subst clears
    exact .ok { stack := .nil, radix := same.radix }
  · by_cases enough : operator.operands ≤ left.stack.length
    · have sameOperands := List.forall₂_take operator.operands same.stack
      have effects := Operator.effect_alike blind sameOperands (List.length_take_of_le enough)
        left.registers right.registers
      rw [afterOperator_of_enough clears enough,
        afterOperator_of_enough clears (sameDepth ▸ enough)]
      exact effects.map fun _ _ sameResults => withEffect_sameBits operator same sameResults
    · have short := Nat.lt_of_not_le enough
      rw [afterOperator_of_short short, afterOperator_of_short (sameDepth ▸ short)]
      exact .error rfl

theorem shown_sameBits {operator : Operator} (blind : operator.signBlind = true)
    {left right : State} (same : left.SameBits right) :
    List.Forall₂ Value.SameBits (left.shown (.apply operator)) (right.shown (.apply operator)) := by
  obtain ⟨leftStack, leftRegisters, leftRadix⟩ := left
  obtain ⟨rightStack, rightRegisters, rightRadix⟩ := right
  have sameStack : List.Forall₂ Value.SameBits leftStack rightStack := same.stack
  cases operator with
  | printRegister => cases blind
  | printStack => exact List.rel_reverse sameStack
  | printTop | dropTop =>
      cases sameStack with
      | nil => exact .nil
      | cons sameValue _ => exact .cons sameValue .nil
  | _ => exact .nil

end State

/-- The lines are the same up to the letters of the signedness at their ends. -/
def DifferInSuffix (left right : String) : Prop :=
  ∃ (stem : String) (leftSign rightSign : Signedness),
    left = stem ++ leftSign.suffix ∧ right = stem ++ rightSign.suffix

/-- The two radixes that show all bits show the same of the same bits. -/
theorem Radix.format_of_sameBits {radix : Radix} (notDecimal : radix ≠ .decimal)
    {left right : Value} (same : left.SameBits right) :
    DifferInSuffix (radix.format left) (radix.format right) := by
  have sameDigits : left.digits radix.layout = right.digits radix.layout := by
    cases radix with
    | decimal => exact absurd rfl notDecimal
    | binary | hexadecimal =>
        simp only [layout, Value.digits]
        rw [same]
  refine ⟨String.ofList (left.digits radix.layout), left.signedness, right.signedness, rfl, ?_⟩
  rw [sameDigits]
  rfl

/-! ### Steps and runs -/

structure Outcome.Alike (radix : Radix) (left right : Outcome) : Prop where
  result : left.result.mapError Fault.kind = right.result.mapError Fault.kind
  state : left.state.SameBits right.state
  lineCount : left.lines.length = right.lines.length
  lines : radix ≠ .decimal → List.Forall₂ DifferInSuffix left.lines right.lines

namespace State

theorem step_alike {step : Step}
    (blind : ∀ operator, step.operation? = .ok (.apply operator) → operator.signBlind = true)
    {left right : State} (same : left.SameBits right) :
    Outcome.Alike left.radix (left.step step) (right.step step) := by
  cases asked : step.operation? with
  | error fault =>
      rw [step_of_unread asked, step_of_unread asked]
      exact ⟨rfl, same, rfl, fun _ => .nil⟩
  | ok operation =>
      cases operation with
      | push value =>
          rw [step_of_done asked rfl, step_of_done asked rfl]
          exact ⟨rfl, ⟨.cons rfl same.stack, same.radix⟩, rfl, fun _ => .nil⟩
      | apply operator =>
          have ran := afterOperator_alike (blind operator asked) same
          have shown := shown_sameBits (blind operator asked) same
          generalize done : left.afterOperator operator = here at ran
          generalize otherDone : right.afterOperator operator = there at ran
          cases ran with
          | error sameKind =>
              rw [step_of_failed asked done, step_of_failed asked otherDone]
              exact ⟨congrArg Except.error sameKind, same, rfl, fun _ => .nil⟩
          | ok sameAfter =>
              rw [step_of_done asked done, step_of_done asked otherDone]
              refine ⟨rfl, sameAfter, ?_, fun notDecimal => ?_⟩
              · rw [List.length_map, List.length_map, shown.length_eq]
              · rw [← same.radix]
                exact List.rel_map
                  (fun _ _ sameValue => Radix.format_of_sameBits notDecimal sameValue) shown

theorem after_sameBits {steps : List Step}
    (blind : ∀ step ∈ steps, ∀ operator, step.operation? = .ok (.apply operator) →
      operator.signBlind = true)
    {left right : State} (same : left.SameBits right) :
    (left.after steps).SameBits (right.after steps) := by
  induction steps generalizing left right with
  | nil => exact same
  | cons step rest ih =>
      have stepped := step_alike (blind step List.mem_cons_self) same
      exact ih (fun other inRest => blind other (List.mem_cons_of_mem step inRest)) stepped.state

private theorem signBlind_of_token {token : String}
    (allowed : token ∉ ["/", "%", ">", "s", "l", "L", "F"]) {operator : Operator}
    (asked : (Step.token token).operation? = .ok (.apply operator)) :
    operator.signBlind = true := by
  have others : ∀ operator ∈ Operator.all, operator.signBlind = false →
      String.singleton operator.symbol ∈ ["/", "%", ">", "s", "l", "L", "F"] := by
    decide
  rw [(Operation.parse_eq_apply_iff_eq token operator).mp asked] at allowed
  by_contra seeing
  exact allowed (others operator operator.mem_all (Bool.eq_false_iff.mpr seeing))

/-- Two machines whose stacks agree in length and bits, and whose radixes agree,
take any tokens but those of division, remainder, right shift and registers in
lock step: at each of them they succeed alike or fail for one kind of fault,
leave stacks that agree again, and print equally many lines, which in the two
radixes that show bits differ in their last three letters at most. -/
theorem sign_blind_runs {left right : State} (same : left.SameBits right) {tokens : List String}
    (allowed : ∀ token ∈ tokens, token ∉ ["/", "%", ">", "s", "l", "L", "F"]) :
    ∀ before token rest, tokens = before ++ token :: rest →
      let here := left.after (before.map .token)
      let there := right.after (before.map .token)
      here.SameBits there ∧
        Outcome.Alike here.radix (here.step (.token token)) (there.step (.token token)) := by
  rintro before token rest rfl here there
  have sameHere : here.SameBits there := by
    refine after_sameBits (fun step member operator asked => ?_) same
    obtain ⟨earlier, inBefore, rfl⟩ := List.mem_map.mp member
    exact signBlind_of_token (allowed earlier (List.mem_append_left _ inBefore)) asked
  have blind := allowed token (List.mem_append_right _ List.mem_cons_self)
  exact ⟨sameHere, step_alike (fun operator asked => signBlind_of_token blind asked) sameHere⟩

/-- Stacks with the same bits in crossed signednesses: lines and faults show the
difference, and nothing else comes of it. -/
theorem sign_blind_runs_of_crossed_stacks :
    let left : State :=
      { stack := [⟨.signed, -2⟩, ⟨.unsigned, 3⟩], registers := .empty, radix := .hexadecimal }
    let right : State :=
      { stack := [⟨.unsigned, -2⟩, ⟨.signed, 3⟩], registers := .empty, radix := .hexadecimal }
    let tokens := ["f", "o", "zz", "r", "^"]
    (left.step (.token "f")).lines = ["0x0000000000000003u64", "0xfffffffffffffffei64"] ∧
      (right.step (.token "f")).lines = ["0x0000000000000003i64", "0xfffffffffffffffeu64"] ∧
      (left.step (.token "o")).result = .error (.badRadix ⟨.signed, -2⟩) ∧
      (right.step (.token "o")).result = .error (.badRadix ⟨.unsigned, -2⟩) ∧
      ∀ before token rest, tokens = before ++ token :: rest →
        let here := left.after (before.map .token)
        let there := right.after (before.map .token)
        here.SameBits there ∧
          Outcome.Alike here.radix (here.step (.token token)) (there.step (.token token)) := by
  refine ⟨by decide +kernel, by decide +kernel, by decide +kernel, by decide +kernel,
    sign_blind_runs ?_ (by decide)⟩
  exact { stack := .cons rfl (.cons rfl .nil), radix := rfl }

end State

end WordCalc
