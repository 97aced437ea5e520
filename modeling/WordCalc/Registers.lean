import WordCalc.Operation

/-!
Registers: a stack of values for every id, and ids are values themselves.

Only occupied registers are kept, in the order of their ids, so a bank is
determined by what its registers hold: an emptied register leaves no trace.
Everything is said through `contents`, the values of one register with the
newest first, and every change is an instance of `replace`, whose effect on the
contents is `contents_replace`.
-/

namespace WordCalc

/-- The place of an id among all ids: signed ids come before unsigned ones, and
ids of one kind are ordered by the numbers they stand for. -/
def Value.rank (id : Value) : Int :=
  match id.signedness with
  | .signed => id.payload - 0x8000_0000_0000_0000
  | .unsigned => id.payload

theorem Value.rank_inj {left right : Value} : left.rank = right.rank ↔ left = right := by
  constructor
  · intro same
    obtain ⟨leftSignedness, leftBits⟩ := left
    obtain ⟨rightSignedness, rightBits⟩ := right
    have leftBelow := BitVec.toInt_lt (x := leftBits)
    have rightBelow := BitVec.toInt_lt (x := rightBits)
    cases leftSignedness with
    | unsigned =>
        cases rightSignedness with
        | unsigned =>
            have patterns : leftBits = rightBits := BitVec.eq_of_toNat_eq (by
              simp only [rank, payload] at same
              omega)
            rw [patterns]
        | signed =>
            simp only [rank, payload] at same
            omega
    | signed =>
        cases rightSignedness with
        | unsigned =>
            simp only [rank, payload] at same
            omega
        | signed =>
            have patterns : leftBits = rightBits := BitVec.eq_of_toInt_eq (by
              simp only [rank, payload] at same
              omega)
            rw [patterns]
  · rintro rfl
    rfl

/-- A register that holds something, with the newest value first. -/
structure Register where
  id : Value
  values : List Value
  occupied : values ≠ []
  deriving DecidableEq

namespace Register

/-- The register of the given id and contents, unless there are no contents. -/
def ofValues (id : Value) (values : List Value) : List Register :=
  if occupied : values ≠ [] then [{ id, values, occupied }] else []

theorem id_of_mem_ofValues {register : Register} {id : Value} {values : List Value}
    (member : register ∈ ofValues id values) : register.id = id := by
  unfold ofValues at member
  split at member
  · rw [List.mem_singleton.mp member]
  · cases member

end Register

structure Registers where
  entries : List Register
  ordered : entries.Pairwise fun earlier later => earlier.id.rank < later.id.rank

namespace Registers

def empty : Registers :=
  { entries := [], ordered := List.Pairwise.nil }

def contents (registers : Registers) (id : Value) : List Value :=
  ((registers.entries.find? fun register => register.id == id).map Register.values).getD []

def replace (registers : Registers) (id : Value) (values : List Value) : Registers :=
  { entries :=
      registers.entries.filter (fun register => register.id.rank < id.rank) ++
        (Register.ofValues id values ++
          registers.entries.filter (fun register => id.rank < register.id.rank))
    ordered := by
      rw [List.pairwise_append, List.pairwise_append]
      refine ⟨registers.ordered.filter _, ⟨?_, registers.ordered.filter _, ?_⟩, ?_⟩
      · unfold Register.ofValues
        split <;> simp
      · intro earlier inMiddle later inRest
        rw [Register.id_of_mem_ofValues inMiddle]
        simpa using (List.mem_filter.mp inRest).2
      · intro earlier inFront later behind
        have below : earlier.id.rank < id.rank := by
          simpa using (List.mem_filter.mp inFront).2
        rcases List.mem_append.mp behind with inMiddle | inRest
        · rw [Register.id_of_mem_ofValues inMiddle]
          exact below
        · have above : id.rank < later.id.rank := by
            simpa using (List.mem_filter.mp inRest).2
          omega }

def push (registers : Registers) (id value : Value) : Registers :=
  registers.replace id (value :: registers.contents id)

def get (registers : Registers) (id : Value) : Except Fault Value :=
  match registers.contents id with
  | [] => .error (.emptyRegister id)
  | newest :: _ => .ok newest

def pop (registers : Registers) (id : Value) : Except Fault (Value × Registers) :=
  match registers.contents id with
  | [] => .error (.emptyRegister id)
  | newest :: older => .ok (newest, registers.replace id older)

def dump (registers : Registers) (id : Value) : List Value :=
  (registers.contents id).reverse

def contains (registers : Registers) (id : Value) : Bool :=
  !(registers.contents id).isEmpty

/-! ### Contents -/

@[simp] theorem contents_empty (id : Value) : empty.contents id = [] := rfl

private theorem find_ofValues (id other : Value) (values : List Value) :
    (((Register.ofValues id values).find? fun register => register.id == other).map
      Register.values).getD [] = if other = id then values else [] := by
  unfold Register.ofValues
  by_cases same : other = id
  · subst same
    split
    · simp
    · rename_i vacant
      simpa using (Decidable.not_not.mp vacant).symm
  · have differs : (id == other) = false := by simpa using Ne.symm same
    split
    · simp [differs]
    · simp

theorem contents_replace (registers : Registers) (id other : Value) (values : List Value) :
    (registers.replace id values).contents other =
      if other = id then values else registers.contents other := by
  have front (wanted : ¬ other.rank < id.rank) :
      (registers.entries.filter fun register => register.id.rank < id.rank).find?
        (fun register => register.id == other) = none := by
    rw [List.find?_eq_none]
    intro register member
    have below : register.id.rank < id.rank := by
      simpa using (List.mem_filter.mp member).2
    simp only [beq_iff_eq]
    rintro rfl
    exact wanted below
  have back (wanted : ¬ id.rank < other.rank) :
      (registers.entries.filter fun register => id.rank < register.id.rank).find?
        (fun register => register.id == other) = none := by
    rw [List.find?_eq_none]
    intro register member
    have above : id.rank < register.id.rank := by
      simpa using (List.mem_filter.mp member).2
    simp only [beq_iff_eq]
    rintro rfl
    exact wanted above
  have kept (keep : Register → Bool)
      (wanted : ∀ register, register.id = other → keep register = true) :
      (registers.entries.filter keep).find? (fun register => register.id == other) =
        registers.entries.find? fun register => register.id == other := by
    rw [List.find?_filter]
    congr 1
    funext register
    by_cases same : register.id = other
    · simp only [wanted register same, true_and, Bool.decide_eq_true]
    · simp [same]
  have middle := find_ofValues id other values
  by_cases same : other = id
  · subst same
    rw [if_pos rfl] at middle ⊢
    simp only [contents, replace, List.find?_append, front (Int.lt_irrefl _),
      back (Int.lt_irrefl _), Option.none_or, Option.or_none]
    exact middle
  · rw [if_neg same] at middle ⊢
    have vacant : (Register.ofValues id values).find? (fun register => register.id == other) =
        none := by
      rw [List.find?_eq_none]
      intro register member
      rw [Register.id_of_mem_ofValues member]
      simpa using Ne.symm same
    have distinct : other.rank ≠ id.rank := fun ranks => same (Value.rank_inj.mp ranks)
    simp only [contents, replace, List.find?_append, vacant, Option.none_or]
    by_cases below : other.rank < id.rank
    · rw [back (by omega), Option.or_none, kept]
      rintro register rfl
      simpa using below
    · rw [front below, Option.none_or, kept]
      rintro register rfl
      simp only [decide_eq_true_eq]
      omega

theorem contents_push (registers : Registers) (id value other : Value) :
    (registers.push id value).contents other =
      if other = id then value :: registers.contents id else registers.contents other :=
  contents_replace registers id other _

private theorem find_eq_some_of_mem {entries : List Register} {register : Register}
    (ordered : entries.Pairwise fun earlier later => earlier.id.rank < later.id.rank)
    (member : register ∈ entries) :
    entries.find? (fun other => other.id == register.id) = some register := by
  induction entries with
  | nil => cases member
  | cons first rest ih =>
      obtain ⟨before, restOrdered⟩ := List.pairwise_cons.mp ordered
      rcases List.mem_cons.mp member with rfl | inRest
      · simp
      · have differs : first.id ≠ register.id := by
          intro same
          have below := before register inRest
          rw [same] at below
          exact Int.lt_irrefl _ below
        rw [List.find?_cons_of_neg (by simpa using differs)]
        exact ih restOrdered inRest

theorem mem_entries_iff (registers : Registers) (register : Register) :
    register ∈ registers.entries ↔ registers.contents register.id = register.values := by
  constructor
  · intro member
    simp [contents, find_eq_some_of_mem registers.ordered member]
  · intro same
    unfold contents at same
    cases found : registers.entries.find? fun other => other.id == register.id with
    | none =>
        rw [found] at same
        exact absurd same.symm register.occupied
    | some other =>
        rw [found] at same
        have sameId : other.id = register.id := by simpa using List.find?_some found
        have member := List.mem_of_find?_eq_some found
        obtain ⟨id, values, occupied⟩ := register
        obtain ⟨otherId, otherValues, otherOccupied⟩ := other
        simp only [Option.map_some, Option.getD_some] at same sameId
        subst same sameId
        exact member

/-- A bank is determined by the contents of its registers. -/
theorem ext_contents {left right : Registers}
    (same : ∀ id, left.contents id = right.contents id) : left = right := by
  have distinct (registers : Registers) : registers.entries.Nodup :=
    registers.ordered.imp fun before equal => by
      rw [equal] at before
      exact Int.lt_irrefl _ before
  have entries : left.entries = right.entries := by
    refine List.Perm.eq_of_pairwise (fun earlier later _ _ before after => ?_)
      left.ordered right.ordered
      ((List.perm_ext_iff_of_nodup (distinct left) (distinct right)).mpr fun register => ?_)
    · omega
    · rw [mem_entries_iff, mem_entries_iff, same]
  obtain ⟨leftEntries, _⟩ := left
  obtain ⟨rightEntries, _⟩ := right
  obtain rfl : leftEntries = rightEntries := entries
  rfl

theorem replace_replace (registers : Registers) (id : Value) (values others : List Value) :
    (registers.replace id values).replace id others = registers.replace id others := by
  refine ext_contents fun other => ?_
  simp only [contents_replace]
  split
  · rfl
  · rfl

theorem replace_contents (registers : Registers) (id : Value) :
    registers.replace id (registers.contents id) = registers := by
  refine ext_contents fun other => ?_
  rw [contents_replace]
  split
  · rename_i same
    rw [same]
  · rfl

/-- A value that is pushed is the next one that is popped, and then the bank is
what it was. -/
theorem pop_push (registers : Registers) (id value : Value) :
    (registers.push id value).pop id = .ok (value, registers) := by
  have held : (registers.push id value).contents id = value :: registers.contents id := by
    rw [contents_push, if_pos rfl]
  have restored : (registers.push id value).replace id (registers.contents id) = registers := by
    rw [push, replace_replace, replace_contents]
  simp only [pop, held, restored]

/-- A bank whose register holds something is one onto which its newest value
has been pushed. -/
theorem exists_push_of_contents {registers : Registers} {id : Value}
    (occupied : registers.contents id ≠ []) :
    ∃ (older : Registers) (newest : Value), registers = older.push id newest ∧
      registers.contents id = newest :: older.contents id := by
  obtain ⟨newest, rest, held⟩ := List.exists_cons_of_ne_nil occupied
  have left : (registers.replace id rest).contents id = rest := by
    rw [contents_replace, if_pos rfl]
  refine ⟨registers.replace id rest, newest, ?_, ?_⟩
  · rw [push, left, replace_replace, ← held, replace_contents]
  · rw [left, held]

end Registers

end WordCalc
