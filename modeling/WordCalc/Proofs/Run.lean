import WordCalc.Machine

/-!
Runs: steps that are taken one after the other on one machine.

A run goes on after a step that fails and after a quit. Its record has one
outcome for every step: the answer or the fault, the lines that were printed,
and the state that was left. Runs compose, so that what is shown of single
steps can be put together along any sequence of them.
-/

namespace WordCalc

/-- One thing that is asked of a machine. A token may ask for nothing that can
be done. The last two run an operator on values directly, and answer nothing. -/
inductive Step
  | token (text : String)
  | run (operation : Operation)
  | unary (operator : UnaryOp)
  | binary (operator : BinaryOp)
  deriving DecidableEq

namespace Step

def operation? : Step → Except Fault Operation
  | .token text => Operation.parse text
  | .run operation => .ok operation
  | .unary operator => .ok (.apply (.unary operator))
  | .binary operator => .ok (.apply (.binary operator))

def answer : Step → Bool → Option Bool
  | .token _, quit => some quit
  | .run _, quit => some quit
  | .unary _, _ => none
  | .binary _, _ => none

end Step

structure Outcome where
  result : Except Fault (Option Bool)
  lines : List String
  state : State

namespace Outcome

def succeeded (outcome : Outcome) : Bool :=
  match outcome.result with
  | .ok _ => true
  | .error _ => false

def fault? (outcome : Outcome) : Option Fault :=
  match outcome.result with
  | .ok _ => none
  | .error fault => some fault

end Outcome

/-! ### Records of runs -/

/-- The outcomes of steps, each taken in the state that the one before left.
How a single step is carried out is left open. -/
def record (execute : State → Step → Outcome) (state : State) : List Step → List Outcome
  | [] => []
  | step :: rest =>
      execute state step :: record execute (execute state step).state rest

def survivors (execute : State → Step → Outcome) (state : State)
    (steps : List Step) : List Step :=
  ((steps.zip (record execute state steps)).filter fun taken => taken.2.succeeded).map Prod.fst

namespace State

def step (state : State) (step : Step) : Outcome :=
  match step.operation? >>= state.run with
  | .ok reply =>
      { result := .ok (step.answer reply.quit), lines := reply.lines, state := reply.state }
  | .error fault => { result := .error fault, lines := [], state }

theorem step_of_unread {state : State} {step : Step} {fault : Fault}
    (unread : step.operation? = .error fault) :
    state.step step = { result := .error fault, lines := [], state } := by
  rw [State.step, unread]
  rfl

theorem step_of_failed {state : State} {step : Step} {operation : Operation} {fault : Fault}
    (asked : step.operation? = .ok operation) (failed : state.next operation = .error fault) :
    state.step step = { result := .error fault, lines := [], state } := by
  have ran : state.run operation = .error fault := by rw [run, failed]; rfl
  rw [State.step, asked]
  simp only [bind, Except.bind, ran]

theorem step_of_done {state after : State} {step : Step} {operation : Operation}
    (asked : step.operation? = .ok operation) (done : state.next operation = .ok after) :
    state.step step =
      { result := .ok (step.answer (operation == .apply .quit))
        lines := (state.shown operation).map state.radix.format
        state := after } := by
  rw [State.step, asked]
  simp only [bind, Except.bind, run, done, Except.map]

def after (state : State) : List Step → State
  | [] => state
  | step :: rest => (state.step step).state.after rest

def outcomes (state : State) (steps : List Step) : List Outcome :=
  record step state steps

@[simp] theorem outcomes_nil (state : State) : state.outcomes [] = [] := rfl

@[simp] theorem outcomes_cons (state : State) (step : Step) (rest : List Step) :
    state.outcomes (step :: rest) =
      state.step step :: (state.step step).state.outcomes rest := rfl

theorem after_append (state : State) (first second : List Step) :
    state.after (first ++ second) = (state.after first).after second := by
  induction first generalizing state with
  | nil => rfl
  | cons step rest ih => exact ih (state.step step).state

theorem outcomes_append (state : State) (first second : List Step) :
    state.outcomes (first ++ second) =
      state.outcomes first ++ (state.after first).outcomes second := by
  induction first generalizing state with
  | nil => rfl
  | cons step rest ih =>
      rw [List.cons_append, outcomes_cons, outcomes_cons, List.cons_append, ih]
      rfl

def Succeeds (state : State) (steps : List Step) : Prop :=
  ∀ outcome ∈ state.outcomes steps, outcome.succeeded = true

instance (state : State) (steps : List Step) : Decidable (state.Succeeds steps) :=
  inferInstanceAs (Decidable (∀ outcome ∈ state.outcomes steps, outcome.succeeded = true))

def Reaches (state : State) (steps : List Step) (final : State) : Prop :=
  state.Succeeds steps ∧ state.after steps = final

/-- There is a step that fails, and the first that does has the given fault. -/
def FirstFails (state : State) (steps : List Step) (fault : Fault) : Prop :=
  ∃ before failing rest,
    steps = before ++ failing :: rest ∧ state.Succeeds before ∧
      ((state.after before).step failing).result = .error fault

theorem succeeds_append (state : State) (first second : List Step) :
    state.Succeeds (first ++ second) ↔
      state.Succeeds first ∧ (state.after first).Succeeds second := by
  unfold Succeeds
  rw [outcomes_append]
  exact List.forall_mem_append

theorem Reaches.nil (state : State) : state.Reaches [] state := by
  refine ⟨?_, rfl⟩
  intro outcome member
  cases member

theorem Reaches.of_step {state final : State} {step : Step} {answer : Option Bool}
    {lines : List String}
    (taken : state.step step = { result := .ok answer, lines, state := final }) :
    state.Reaches [step] final := by
  constructor
  · intro outcome member
    rw [outcomes_cons, outcomes_nil, List.mem_singleton] at member
    rw [member, taken]
    rfl
  · rw [after, taken]
    rfl

theorem Reaches.append {state middle final : State} {first second : List Step}
    (reaches : state.Reaches first middle) (further : middle.Reaches second final) :
    state.Reaches (first ++ second) final := by
  obtain ⟨succeeds, rfl⟩ := reaches
  obtain ⟨succeedsToo, rfl⟩ := further
  exact ⟨(succeeds_append state first second).mpr ⟨succeeds, succeedsToo⟩,
    after_append state first second⟩

theorem FirstFails.append {state : State} {steps : List Step} {fault : Fault}
    (fails : state.FirstFails steps fault) (more : List Step) :
    state.FirstFails (steps ++ more) fault := by
  obtain ⟨before, failing, rest, rfl, succeeds, failed⟩ := fails
  refine ⟨before, failing, rest ++ more, ?_, succeeds, failed⟩
  rw [List.append_assoc, List.cons_append]

theorem Reaches.firstFails {state middle : State} {first second : List Step} {fault : Fault}
    (reaches : state.Reaches first middle) (fails : middle.FirstFails second fault) :
    state.FirstFails (first ++ second) fault := by
  obtain ⟨succeeds, rfl⟩ := reaches
  obtain ⟨before, failing, rest, rfl, succeedsToo, failed⟩ := fails
  refine ⟨first ++ before, failing, rest, ?_, ?_, ?_⟩
  · rw [List.append_assoc]
  · exact (succeeds_append state first before).mpr ⟨succeeds, succeedsToo⟩
  · rw [after_append]
    exact failed

theorem FirstFails.of_step {state : State} {step : Step} {fault : Fault}
    (failed : (state.step step).result = .error fault) : state.FirstFails [step] fault :=
  ⟨[], step, [], rfl, (Reaches.nil state).1, failed⟩

/-- Tokens that leave every state as it is can be left out of a run: the others
have the outcomes that they had. -/
theorem outcomes_filter {keep : String → Bool}
    (idle : ∀ token, keep token = false → ∀ state : State,
      (state.step (.token token)).state = state)
    (state : State) (tokens : List String) :
    state.outcomes ((tokens.filter keep).map .token) =
      ((tokens.zip (state.outcomes (tokens.map .token))).filter fun taken =>
        keep taken.1).map Prod.snd := by
  induction tokens generalizing state with
  | nil => rfl
  | cons token rest ih =>
      rw [List.map_cons, outcomes_cons, List.zip_cons_cons, List.filter_cons, List.filter_cons]
      cases kept : keep token with
      | true =>
          rw [if_pos rfl, if_pos rfl, List.map_cons, outcomes_cons, ih, List.map_cons]
      | false =>
          rw [if_neg Bool.false_ne_true, if_neg Bool.false_ne_true, ih, idle token kept]

theorem after_filter {keep : String → Bool}
    (idle : ∀ token, keep token = false → ∀ state : State,
      (state.step (.token token)).state = state)
    (state : State) (tokens : List String) :
    state.after ((tokens.filter keep).map .token) = state.after (tokens.map .token) := by
  induction tokens generalizing state with
  | nil => rfl
  | cons token rest ih =>
      rw [List.filter_cons, List.map_cons, after]
      cases kept : keep token with
      | true => rw [if_pos rfl, List.map_cons, after, ih]
      | false => rw [if_neg Bool.false_ne_true, ih, idle token kept]

/-- What every step shows and keeps, every step of a run shows. -/
theorem forall_outcomes (kept : State → Prop) {shows : Outcome → Prop} {steps : List Step}
    (each : ∀ step ∈ steps, ∀ state, kept state →
      shows (state.step step) ∧ kept (state.step step).state)
    {state : State} (holds : kept state) :
    ∀ outcome ∈ state.outcomes steps, shows outcome := by
  induction steps generalizing state with
  | nil =>
      intro outcome member
      cases member
  | cons step rest ih =>
      obtain ⟨shown, still⟩ := each step List.mem_cons_self state holds
      intro outcome member
      rw [outcomes_cons, List.mem_cons] at member
      rcases member with rfl | later
      · exact shown
      · exact ih (fun other inRest => each other (List.mem_cons_of_mem step inRest))
          still outcome later

def printed (state : State) (steps : List Step) : List String :=
  (state.outcomes steps).flatMap Outcome.lines

structure Yields (state : State) (steps : List Step) (lines : List String)
    (final : State) : Prop where
  reaches : state.Reaches steps final
  printed : state.printed steps = lines

theorem Yields.nil (state : State) : state.Yields [] [] state :=
  ⟨Reaches.nil state, rfl⟩

theorem Yields.of_next {state after : State} {operation : Operation}
    (done : state.next operation = .ok after) :
    state.Yields [.run operation] ((state.shown operation).map state.radix.format) after := by
  have taken := @step_of_done state after (.run operation) operation rfl done
  refine ⟨Reaches.of_step taken, ?_⟩
  rw [State.printed, outcomes_cons, outcomes_nil, List.flatMap_singleton, taken]

theorem Yields.append {state middle final : State} {first second : List Step}
    {lines more : List String} (yields : state.Yields first lines middle)
    (further : middle.Yields second more final) :
    state.Yields (first ++ second) (lines ++ more) final := by
  refine ⟨yields.reaches.append further.reaches, ?_⟩
  rw [State.printed, outcomes_append, List.flatMap_append, yields.reaches.2, ← yields.printed,
    ← further.printed]
  rfl

theorem Yields.cons {state middle final : State} {operation : Operation} {steps : List Step}
    {lines : List String} (done : state.next operation = .ok middle)
    (further : middle.Yields steps lines final) :
    state.Yields (.run operation :: steps)
      ((state.shown operation).map state.radix.format ++ lines) final :=
  (Yields.of_next done).append further

end State

end WordCalc
