import Mathlib.Data.Finmap
import WordCalc.Proofs.Storage
import WordCalc.Proofs.Trouble

/-!
Banks that keep emptied lists.

Such a bank maps ids to lists of values. A register that was never used has no
list, and one that was emptied keeps an empty list, so that the same register
is found empty in two ways. Nothing of this is seen from outside: the bank
behaves as the bank of the machine, in which emptied registers leave no trace.
-/

namespace WordCalc.Registers

abbrev StoredLists : Type := Finmap fun _ : Value => List Value

namespace StoredLists

def listOf (bank : StoredLists) (id : Value) : Except Trouble (List Value) :=
  match bank.lookup id with
  | some values => .ok values
  | none => .error .missingKey

def lastOf (values : List Value) : Except Trouble Value :=
  match values.getLast? with
  | some newest => .ok newest
  | none => .error .noElement

def push (bank : StoredLists) (id value : Value) : StoredLists :=
  bank.insert id ((bank.lookup id).getD [] ++ [value])

def get (bank : StoredLists) (id : Value) : Except Trouble Value :=
  Trouble.reportedAs (.emptyRegister id) (do
    let values ← bank.listOf id
    lastOf values)

/-- Takes the last value off the list of a register. The list stays, even if it
has nothing left. -/
def pop (bank : StoredLists) (id : Value) : Except Trouble (Value × StoredLists) :=
  Trouble.reportedAs (.emptyRegister id) (do
    let values ← bank.listOf id
    let newest ← lastOf values
    return (newest, bank.insert id values.dropLast))

def contains (bank : StoredLists) (id : Value) : Bool :=
  match bank.lookup id with
  | some values => !values.isEmpty
  | none => false

def dump (bank : StoredLists) (id : Value) : Except Trouble (List Value) :=
  if bank.contains id then bank.listOf id else .ok []

def storage : Storage StoredLists Trouble where
  fresh := ∅
  failure := .fault
  access bank access :=
    match access.action with
    | .push value => (.ok .done, bank.push access.id value)
    | .get => ((bank.get access.id).map .value, bank)
    | .pop =>
        match bank.pop access.id with
        | .ok (value, after) => (.ok (.value value), after)
        | .error trouble => (.error trouble, bank)
    | .dump => ((bank.dump access.id).map .values, bank)
    | .contains => (.ok (.holds (bank.contains access.id)), bank)

def held (bank : StoredLists) (id : Value) : List Value :=
  (bank.lookup id).getD []

theorem held_insert (bank : StoredLists) (id other : Value) (values : List Value) :
    held (bank.insert id values) other = if other = id then values else bank.held other := by
  by_cases same : other = id
  · rw [if_pos same, same, held, Finmap.lookup_insert]
    rfl
  · rw [if_neg same, held, Finmap.lookup_insert_of_ne _ same]
    rfl

theorem get_eq (bank : StoredLists) (id : Value) :
    bank.get id =
      match (bank.held id).getLast? with
      | some newest => .ok newest
      | none => .error (.fault (.emptyRegister id)) := by
  rw [get, listOf, held]
  cases bank.lookup id with
  | none => rfl
  | some values =>
      change Trouble.reportedAs _ (lastOf values) = _
      rw [lastOf, Option.getD_some]
      cases values.getLast? with
      | none => rfl
      | some newest => rfl

theorem pop_eq (bank : StoredLists) (id : Value) :
    bank.pop id =
      match (bank.held id).getLast? with
      | some newest => .ok (newest, bank.insert id (bank.held id).dropLast)
      | none => .error (.fault (.emptyRegister id)) := by
  rw [pop, listOf, held]
  cases bank.lookup id with
  | none => rfl
  | some values =>
      change Trouble.reportedAs _ (lastOf values >>= _) = _
      rw [lastOf, Option.getD_some]
      cases values.getLast? with
      | none => rfl
      | some newest => rfl

theorem contains_eq (bank : StoredLists) (id : Value) :
    bank.contains id = !(bank.held id).isEmpty := by
  rw [contains, held]
  cases bank.lookup id with
  | none => rfl
  | some values => rfl

theorem dump_eq (bank : StoredLists) (id : Value) : bank.dump id = .ok (bank.held id) := by
  rw [dump, contains, listOf, held]
  cases bank.lookup id with
  | none => rfl
  | some values =>
      cases values with
      | nil => rfl
      | cons oldest newer => rfl

theorem storage_shows_held : storage.Shows held where
  fresh id := by
    have none : (∅ : StoredLists).lookup id = .none := Finmap.lookup_empty id
    rw [storage, held, none]
    rfl
  reply bank access := by
    obtain ⟨id, action⟩ := access
    cases action with
    | push value => rfl
    | get =>
        simp only [storage, get_eq, Action.answer]
        cases (bank.held id).getLast? with
        | none => rfl
        | some newest => rfl
    | pop =>
        simp only [storage, pop_eq, Action.answer]
        cases (bank.held id).getLast? with
        | none => rfl
        | some newest => rfl
    | dump =>
        simp only [storage, dump_eq, Action.answer]
        rfl
    | contains =>
        simp only [storage, contains_eq, Action.answer]
        rfl
  leaves bank access id := by
    obtain ⟨own, action⟩ := access
    cases action with
    | push value =>
        simp only [storage, push, held_insert, Action.leaves]
        split
        · rename_i same
          rw [same, held]
        · rfl
    | get | dump | contains => simp only [storage, Action.leaves, ite_self]
    | pop =>
        cases found : (bank.held own).getLast? with
        | none =>
            have empty : bank.held own = [] := List.getLast?_eq_none_iff.mp found
            simp only [storage, pop_eq, found, Action.leaves]
            by_cases same : id = own
            · rw [if_pos same, same, empty]
              rfl
            · rw [if_neg same]
        | some newest =>
            simp only [storage, pop_eq, found, held_insert, Action.leaves]
            by_cases same : id = own
            · rw [if_pos same, if_pos same, same]
            · rw [if_neg same, if_neg same]
  failed bank access trouble := by
    obtain ⟨id, action⟩ := access
    cases action with
    | push | contains =>
        intro failed
        cases failed
    | get | dump =>
        intro _
        rfl
    | pop =>
        simp only [storage]
        cases bank.pop id with
        | error trouble =>
            intro _
            rfl
        | ok taken =>
            intro failed
            cases failed

end StoredLists

/-- The bank of the machine, and the bank that keeps emptied lists, are families
of stacks that know nothing of each other. -/
theorem registers_independent :
    storage.IndependentStacks ∧ StoredLists.storage.IndependentStacks :=
  ⟨storage_shows_dump.independentStacks, StoredLists.storage_shows_held.independentStacks⟩

end WordCalc.Registers
