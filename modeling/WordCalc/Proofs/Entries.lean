import WordCalc.Evaluation
import WordCalc.Proofs.Outcomes
import WordCalc.Proofs.ReadBack

/-!
What the entries of a listing tell.

An entry tells what its token does when it is fed to a machine in any state: it
is refused, or it pushes the value that is described, or it is one operator. No
two operators, values or invalid tokens have an entry in common, nor do any of
them and one of another kind.
-/

namespace WordCalc

theorem Denotes.unique {chars : List Char} {value other : Value} (denotes : Denotes chars value)
    (otherwise : Denotes chars other) : value = other := by
  rw [← @String.toList_ofList chars, ← Value.ofLiteral?_eq_some_iff] at denotes otherwise
  rw [denotes] at otherwise
  exact Option.some.inj otherwise

namespace Value

theorem bits_eq_of_numeral_eq {radix : Radix} {first second : Value}
    (same : first.numeral radix = second.numeral radix) : first.bits = second.bits := by
  obtain ⟨read, denotes, bits, _⟩ := numeral_denotes radix first
  obtain ⟨other, otherwise, otherBits, _⟩ := numeral_denotes radix second
  rw [same] at denotes
  rw [← bits, ← otherBits, denotes.unique otherwise]

theorem description_injective : Function.Injective description := by
  intro first second same
  rw [description, description, String.append_left_inj] at same
  have kinds : first.signedness = second.signedness := by
    have chars := congrArg String.toList same
    rw [String.toList_append, String.toList_append, String.toList_append,
      String.toList_append] at chars
    cases kind : first.signedness with
    | unsigned =>
        cases otherKind : second.signedness with
        | unsigned => rfl
        | signed =>
            rw [kind, otherKind] at chars
            cases chars
    | signed =>
        cases otherKind : second.signedness with
        | signed => rfl
        | unsigned =>
            rw [kind, otherKind] at chars
            cases chars
  rw [kinds, String.append_right_inj] at same
  have numerals : first.numeral .decimal = second.numeral .decimal :=
    String.ofList_injective same
  have words := bits_eq_of_numeral_eq numerals
  cases first
  cases second
  cases kinds
  cases words
  rfl

end Value

namespace Operator

theorem ofLabel?_label (operator : Operator) : ofLabel? operator.label = some operator := by
  have every : ∀ operator ∈ all, ofLabel? operator.label = some operator := by decide
  exact every operator (mem_all operator)

theorem label_injective : Function.Injective label := by
  intro operator other same
  have read := ofLabel?_label operator
  rw [same, ofLabel?_label other] at read
  exact (Option.some.inj read).symm

/-- The label of an operator begins neither as the entry of a value does nor as
that of an invalid token. -/
private theorem take_label (operator : Operator) :
    operator.label.toList.take 2 ≠ ['P', 'u'] ∧ operator.label.toList.take 2 ≠ ['I', 'n'] := by
  have every : ∀ operator ∈ all,
      operator.label.toList.take 2 ≠ ['P', 'u'] ∧ operator.label.toList.take 2 ≠ ['I', 'n'] := by
    decide
  exact every operator (mem_all operator)

end Operator

namespace Operation

private theorem take_label_push (value : Value) :
    (push value).label.toList.take 2 = ['P', 'u'] := by
  rw [label, String.toList_append, String.toList_append]
  rfl

private theorem take_message (token : String) :
    (Fault.invalidInput token).message.toList.take 2 = ['I', 'n'] := by
  change ("Invalid input: '" ++ token ++ "'").toList.take 2 = _
  rw [String.toList_append, String.toList_append]
  rfl

theorem label_injective : Function.Injective label := by
  have apart (value : Value) (operator : Operator) : (push value).label ≠ operator.label := by
    intro same
    have opening := take_label_push value
    rw [same] at opening
    exact operator.take_label.1 opening
  intro first second same
  cases first with
  | push value =>
      cases second with
      | push other =>
          rw [label, label, String.append_left_inj, String.append_right_inj] at same
          rw [Value.description_injective same]
      | apply operator => exact absurd same (apart value operator)
  | apply operator =>
      cases second with
      | push value => exact absurd same.symm (apart value operator)
      | apply other => rw [Operator.label_injective same]

theorem label_ne_message (operation : Operation) (token : String) :
    operation.label ≠ (Fault.invalidInput token).message := by
  intro same
  have opening := take_message token
  rw [← same] at opening
  cases operation with
  | push value =>
      rw [take_label_push] at opening
      cases opening
  | apply operator => exact operator.take_label.2 opening

theorem fault_of_parse {token : String} {fault : Fault} (unread : parse token = .error fault) :
    fault = .invalidInput token := by
  unfold parse at unread
  cases named : operatorOf? token with
  | some operator =>
      rw [named] at unread
      cases unread
  | none =>
      rw [named] at unread
      cases read : Value.parse token with
      | ok value =>
          rw [read] at unread
          cases unread
      | error other =>
          rw [read] at unread
          cases unread
          exact ((Value.parse_eq_error_iff token fault).mp read).1

end Operation

/-! ### Entries -/

namespace Listing

theorem entry_eq_label_iff (token : String) (operation : Operation) :
    entry token = operation.label ↔ Operation.parse token = .ok operation := by
  rw [entry]
  cases read : Operation.parse token with
  | ok asked => simp [Operation.label_injective.eq_iff]
  | error fault =>
      rw [Operation.fault_of_parse read]
      exact iff_of_false (operation.label_ne_message token).symm (fun same => by cases same)

theorem entry_eq_message_iff (token other : String) :
    entry token = (Fault.invalidInput other).message ↔
      Operation.parse token = .error (.invalidInput other) := by
  rw [entry]
  cases read : Operation.parse token with
  | ok asked =>
      exact iff_of_false (asked.label_ne_message other) (fun same => by cases same)
  | error fault =>
      rw [Operation.fault_of_parse read, Except.error.injEq, Fault.invalidInput.injEq]
      change "Invalid input: '" ++ token ++ "'" = "Invalid input: '" ++ other ++ "'" ↔ _
      rw [String.append_left_inj, String.append_right_inj]

theorem parse_eq_of_entry_eq {first second : String} (same : entry first = entry second) :
    Operation.parse first = Operation.parse second := by
  cases read : Operation.parse second with
  | ok operation =>
      rw [← entry_eq_label_iff] at read ⊢
      rw [same, read]
  | error fault =>
      have refused := Operation.fault_of_parse read
      subst refused
      rw [← entry_eq_message_iff] at read ⊢
      rw [same, read]

end Listing

namespace State

private theorem feed_of_read {token : String} {operation : Operation}
    (read : Operation.parse token = .ok operation) (state : State) :
    state.feed token = state.run operation := by
  rw [feed, read]
  rfl

private theorem feed_of_unread {token : String} {fault : Fault}
    (unread : Operation.parse token = .error fault) (state : State) :
    state.feed token = .error fault := by
  rw [feed, unread]
  rfl

theorem feed_eq_invalidInput_iff (state : State) (token other : String) :
    state.feed token = .error (.invalidInput other) ↔
      Operation.parse token = .error (.invalidInput other) := by
  cases read : Operation.parse token with
  | error fault => rw [feed_of_unread read, Except.error.injEq, Except.error.injEq]
  | ok operation =>
      rw [feed_of_read read]
      refine iff_of_false ?_ (fun same => by cases same)
      intro failed
      cases (state.run_eq_error_iff operation _).mp failed

theorem feed_eq_push_iff (token : String) (value : Value) :
    (∀ state : State, state.feed token =
        .ok { quit := false, lines := [], state := state.pushAll [value] }) ↔
      Operation.parse token = .ok (.push value) := by
  constructor
  · intro pushes
    -- Some states are left by `d` as by a push, but no operator leaves anything
    -- on a stack that was empty.
    have fresh := pushes .initial
    cases read : Operation.parse token with
    | error fault =>
        rw [feed_of_unread read] at fresh
        cases fresh
    | ok operation =>
        rw [feed_of_read read] at fresh
        cases operation with
        | push other =>
            cases fresh
            rfl
        | apply operator => cases operator <;> cases fresh
  · intro read state
    rw [feed_of_read read]
    rfl

end State

namespace Listing

structure Tells (token entry : String) : Prop where
  invalid : ∀ state : State,
    (entry = "Invalid input: '" ++ token ++ "'" ↔
        state.feed token = .error (.invalidInput token)) ∧
      ∀ other, state.feed token = .error (.invalidInput other) → other = token
  push : ∀ value : Value, entry = "Push(value=" ++ value.description ++ ")" ↔
    ∀ state : State, state.feed token =
      .ok { quit := false, lines := [], state := state.pushAll [value] }
  operator : ∀ operator : Operator,
    (entry = operator.label ↔ token = String.singleton operator.symbol) ∧
      (entry = operator.label → ∀ state : State, state.feed token = state.run (.apply operator))
  /-- There is nothing else that an entry can be. -/
  complete : entry = "Invalid input: '" ++ token ++ "'" ∨
    (∃ value : Value, entry = "Push(value=" ++ value.description ++ ")") ∨
      ∃ operator : Operator, entry = operator.label

theorem tells_entry (token : String) : Tells token (entry token) where
  invalid := by
    intro state
    rw [State.feed_eq_invalidInput_iff]
    refine ⟨entry_eq_message_iff token token, ?_⟩
    intro other refused
    rw [State.feed_eq_invalidInput_iff] at refused
    exact Fault.invalidInput.inj (Operation.fault_of_parse refused)
  push := by
    intro value
    rw [State.feed_eq_push_iff]
    exact entry_eq_label_iff token (.push value)
  operator := by
    intro operator
    have named := entry_eq_label_iff token (.apply operator)
    refine ⟨named.trans (Operation.parse_eq_apply_iff_eq token operator), ?_⟩
    intro same
    exact State.feed_of_read (named.mp same)
  complete := by
    cases read : Operation.parse token with
    | error fault =>
        rw [Operation.fault_of_parse read] at read
        exact .inl ((entry_eq_message_iff token token).mpr read)
    | ok operation =>
        have same := (entry_eq_label_iff token operation).mpr read
        cases operation with
        | push value => exact .inr (.inl ⟨value, same⟩)
        | apply operator => exact .inr (.inr ⟨operator, same⟩)

end Listing

end WordCalc
