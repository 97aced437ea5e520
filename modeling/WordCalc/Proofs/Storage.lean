import Mathlib.Logic.Function.Basic
import WordCalc.Registers

/-!
Banks of registers as families of stacks.

An access asks one register of a bank for one thing. A way to keep a bank shows
its registers as lists if an access is answered from the list of its own
register, and changes no other list. Whatever is kept that way behaves as a
family of stacks that know nothing of each other. The bank of the machine is
kept that way.
-/

namespace WordCalc.Registers

inductive Action
  | push (value : Value)
  | get
  | pop
  | dump
  | contains
  deriving DecidableEq

structure Access where
  id : Value
  action : Action
  deriving DecidableEq

inductive Answer
  | done
  | value (value : Value)
  | values (values : List Value)
  | holds (something : Bool)
  deriving DecidableEq

namespace Action

def answer (id : Value) (held : List Value) : Action → Except Fault Answer
  | .push _ => .ok .done
  | .get | .pop =>
      match held.getLast? with
      | some newest => .ok (.value newest)
      | none => .error (.emptyRegister id)
  | .dump => .ok (.values held)
  | .contains => .ok (.holds (!held.isEmpty))

def leaves (held : List Value) : Action → List Value
  | .push value => held ++ [value]
  | .pop => held.dropLast
  | .get | .dump | .contains => held

end Action

def accessesOf (id : Value) (accesses : List Access) : List Access :=
  accesses.filter fun access => access.id = id

/-- The values that were pushed onto a register and not popped since, oldest
first. -/
def unpopped (id : Value) (accesses : List Access) : List Value :=
  (accessesOf id accesses).foldl (fun held access => access.action.leaves held) []

/-- A way to keep a bank of registers, with failures of its own among which the
faults of the machine are. -/
structure Storage (Bank Failure : Type) where
  fresh : Bank
  access : Bank → Access → Except Failure Answer × Bank
  failure : Fault → Failure

namespace Storage

variable {Bank Failure : Type}

def after (storage : Storage Bank Failure) (bank : Bank) : List Access → Bank
  | [] => bank
  | access :: rest => storage.after (storage.access bank access).2 rest

def replies (storage : Storage Bank Failure) (bank : Bank) :
    List Access → List (Except Failure Answer)
  | [] => []
  | access :: rest =>
      (storage.access bank access).1 :: storage.replies (storage.access bank access).2 rest

def repliesOf (storage : Storage Bank Failure) (bank : Bank) (id : Value)
    (accesses : List Access) : List (Except Failure Answer) :=
  ((accesses.zip (storage.replies bank accesses)).filter fun taken => taken.1.id = id).map
    Prod.snd

structure IndependentStacks (storage : Storage Bank Failure) : Prop where
  /-- An access is answered from the values of its register alone. -/
  reply : ∀ before access,
    (storage.access (storage.after storage.fresh before) access).1 =
      (access.action.answer access.id (unpopped access.id before)).mapError storage.failure
  /-- An access that fails changes nothing. -/
  failed : ∀ before access failure,
    (storage.access (storage.after storage.fresh before) access).1 = .error failure →
      (storage.access (storage.after storage.fresh before) access).2 =
        storage.after storage.fresh before
  /-- Ids name the same register exactly when they agree in signedness and payload. -/
  sameRegister : ∀ (id other value : Value),
    storage.replies storage.fresh [⟨id, .push value⟩, ⟨other, .contains⟩] =
      [.ok .done,
        .ok (.holds (decide (id.signedness = other.signedness ∧ id.payload = other.payload)))]
  /-- The accesses of a register get the replies that they get when there are no others. -/
  apart : ∀ id accesses,
    storage.repliesOf storage.fresh id accesses =
      storage.replies storage.fresh (accessesOf id accesses)
  /-- Accesses can be reordered as long as those of each register keep their order. -/
  reordered : ∀ accesses others,
    (∀ id, accessesOf id others = accessesOf id accesses) →
      (∀ id, storage.repliesOf storage.fresh id others =
        storage.repliesOf storage.fresh id accesses) ∧
      ∀ later, storage.replies (storage.after storage.fresh others) later =
        storage.replies (storage.after storage.fresh accesses) later
  /-- A register that holds nothing any more is as good as one that was never used. -/
  emptied : ∀ before id,
    (storage.access (storage.after storage.fresh before) ⟨id, .contains⟩).1 =
        .ok (.holds false) →
      ∀ later, storage.replies (storage.after storage.fresh before) later =
        storage.replies
          (storage.after storage.fresh (before.filter fun access => access.id ≠ id)) later

/-- The bank shows its registers as lists, and an access concerns the list of
its own register only. -/
structure Shows (storage : Storage Bank Failure) (held : Bank → Value → List Value) : Prop where
  fresh : ∀ id, held storage.fresh id = []
  reply : ∀ bank access,
    (storage.access bank access).1 =
      (access.action.answer access.id (held bank access.id)).mapError storage.failure
  leaves : ∀ bank access id,
    held (storage.access bank access).2 id =
      if id = access.id then access.action.leaves (held bank id) else held bank id
  failed : ∀ bank access failure,
    (storage.access bank access).1 = .error failure → (storage.access bank access).2 = bank

/-! ### Runs of accesses -/

namespace Shows

variable {storage : Storage Bank Failure} {held : Bank → Value → List Value}

theorem held_after (shows : storage.Shows held) (bank : Bank) (id : Value)
    (accesses : List Access) :
    held (storage.after bank accesses) id =
      (accessesOf id accesses).foldl (fun held access => access.action.leaves held)
        (held bank id) := by
  induction accesses generalizing bank with
  | nil => rfl
  | cons access rest ih =>
      rw [after, ih, shows.leaves, accessesOf, accessesOf, List.filter_cons]
      by_cases own : access.id = id
      · rw [if_pos own.symm, if_pos (decide_eq_true own), List.foldl_cons]
      · rw [if_neg fun same => own same.symm, if_neg (by rwa [decide_eq_true_eq])]

theorem held_after_fresh (shows : storage.Shows held) (id : Value) (accesses : List Access) :
    held (storage.after storage.fresh accesses) id = unpopped id accesses := by
  rw [shows.held_after, shows.fresh, unpopped]

theorem replies_congr (shows : storage.Shows held) {left right : Bank}
    (same : held left = held right) (later : List Access) :
    storage.replies left later = storage.replies right later := by
  induction later generalizing left right with
  | nil => rfl
  | cons access rest ih =>
      have sameAfter : held (storage.access left access).2 =
          held (storage.access right access).2 := by
        funext id
        rw [shows.leaves, shows.leaves, same]
      rw [replies, replies, shows.reply, shows.reply, same, ih sameAfter]

theorem repliesOf_eq (shows : storage.Shows held) {bank alone : Bank} {id : Value}
    (same : held bank id = held alone id) (accesses : List Access) :
    storage.repliesOf bank id accesses = storage.replies alone (accessesOf id accesses) := by
  induction accesses generalizing bank alone with
  | nil => rfl
  | cons access rest ih =>
      rw [repliesOf, replies, List.zip_cons_cons, List.filter_cons, accessesOf, List.filter_cons]
      by_cases own : access.id = id
      · have further : held (storage.access bank access).2 id =
            held (storage.access alone access).2 id := by
          rw [shows.leaves, shows.leaves, same]
        rw [if_pos (decide_eq_true own), if_pos (decide_eq_true own), List.map_cons, replies,
          shows.reply, shows.reply, own, same]
        exact congrArg _ (ih further)
      · have further : held (storage.access bank access).2 id = held alone id := by
          rw [shows.leaves, if_neg fun same => own same.symm, same]
        rw [if_neg (by rwa [decide_eq_true_eq]), if_neg (by rwa [decide_eq_true_eq])]
        exact ih further

private theorem unpopped_single (id other value : Value) :
    (unpopped other [⟨id, .push value⟩]).isEmpty = !decide (id = other) := by
  by_cases same : id = other
  · simp [unpopped, accessesOf, Action.leaves, same]
  · simp [unpopped, accessesOf, same]

theorem independentStacks (shows : storage.Shows held) : storage.IndependentStacks where
  reply before access := by
    rw [shows.reply, shows.held_after_fresh]
  failed before access := shows.failed _ access
  sameRegister id other value := by
    have found := shows.held_after_fresh other [⟨id, .push value⟩]
    have empty := unpopped_single id other value
    rw [replies, replies, replies, shows.reply, shows.reply]
    rw [after, after] at found
    simp only [found, Action.answer, empty, Bool.not_not, Value.eq_iff_signedness_payload]
    rfl
  apart id accesses := shows.repliesOf_eq rfl accesses
  reordered accesses others same := by
    have shown : held (storage.after storage.fresh others) =
        held (storage.after storage.fresh accesses) := by
      funext id
      rw [shows.held_after, shows.held_after, same]
    refine ⟨fun id => ?_, shows.replies_congr shown⟩
    rw [shows.repliesOf_eq rfl, shows.repliesOf_eq rfl, same]
  emptied before id vacant := by
    have nothing : unpopped id before = [] := by
      rw [shows.reply, shows.held_after_fresh] at vacant
      have holds : (!(unpopped id before).isEmpty) = false :=
        Answer.holds.inj (Except.ok.inj vacant)
      simpa using holds
    apply shows.replies_congr
    funext other
    rw [shows.held_after_fresh, shows.held_after_fresh]
    by_cases same : other = id
    · have none : accessesOf id (before.filter fun access => access.id ≠ id) = [] := by
        simp [accessesOf]
      rw [same, nothing, unpopped, none]
      rfl
    · have kept : accessesOf other (before.filter fun access => access.id ≠ id) =
          accessesOf other before := by
        rw [accessesOf, List.filter_filter]
        refine List.filter_congr fun access _ => ?_
        by_cases own : access.id = other
        · simp [own, same]
        · simp [own]
      rw [unpopped, unpopped, kept]

end Shows

end Storage

def storage : Storage Registers Fault where
  fresh := .empty
  failure := id
  access bank access :=
    match access.action with
    | .push value => (.ok .done, bank.push access.id value)
    | .get => ((bank.get access.id).map .value, bank)
    | .pop =>
        match bank.pop access.id with
        | .ok (value, after) => (.ok (.value value), after)
        | .error fault => (.error fault, bank)
    | .dump => (.ok (.values (bank.dump access.id)), bank)
    | .contains => (.ok (.holds (bank.contains access.id)), bank)

theorem storage_shows_dump : storage.Shows dump where
  fresh id := rfl
  reply bank access := by
    obtain ⟨id, action⟩ := access
    cases action with
    | push value => rfl
    | dump => rfl
    | contains =>
        simp only [storage, Action.answer, contains, dump, List.isEmpty_reverse]
        rfl
    | get =>
        simp only [storage, Action.answer, get, dump, List.getLast?_reverse]
        cases bank.contents id with
        | nil => rfl
        | cons newest older => rfl
    | pop =>
        simp only [storage, Action.answer, pop, dump, List.getLast?_reverse]
        cases bank.contents id with
        | nil => rfl
        | cons newest older => rfl
  leaves bank access id := by
    obtain ⟨own, action⟩ := access
    cases action with
    | push value =>
        simp only [storage, dump, contents_push, Action.leaves]
        split
        · rename_i same
          rw [same, List.reverse_cons]
        · rfl
    | get | dump | contains => simp [storage, Action.leaves]
    | pop =>
        cases contents : bank.contents own with
        | nil =>
            simp only [storage, pop, contents, Action.leaves]
            split
            · rename_i same
              simp [dump, same, contents]
            · rfl
        | cons newest older =>
            simp only [storage, pop, contents, dump, contents_replace, Action.leaves]
            split
            · rename_i same
              simp [same, contents]
            · rfl
  failed bank access failure := by
    obtain ⟨id, action⟩ := access
    cases action with
    | push | dump | contains =>
        intro failed
        cases failed
    | get =>
        intro _
        rfl
    | pop =>
        simp only [storage]
        cases bank.pop id with
        | error fault =>
            intro _
            rfl
        | ok taken =>
            intro failed
            cases failed

end WordCalc.Registers
