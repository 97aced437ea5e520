import WordCalc.Machine

/-!
Evaluation of input.

Tokens are fed to the machine one after the other. A token that fails is
reported and skipped; the first quit ends the evaluation and leaves everything
behind it unread. How the tokens are laid out in lines makes no difference:
evaluating lines one by one is evaluating all their tokens.

A listing shows what every token of the input asks for, without running
anything. It has one line for each token, under a line of headings; the two
columns are divided by a tab.
-/

namespace WordCalc

inductive Event
  | printed (line : String)
  | failed (fault : Fault)
  deriving DecidableEq

namespace Event

def line? : Event → Option String
  | .printed line => some line
  | .failed _ => none

def fault? : Event → Option Fault
  | .printed _ => none
  | .failed fault => some fault

end Event

/-- What an evaluation came to: the state it ended in, whether it met a quit,
and everything it reported, in order. -/
structure Evaluation where
  state : State
  finished : Bool
  events : List Event

namespace Evaluation

def lines (evaluation : Evaluation) : List String :=
  evaluation.events.filterMap Event.line?

def faults (evaluation : Evaluation) : List Fault :=
  evaluation.events.filterMap Event.fault?

def after (evaluation : Evaluation) (earlier : List Event) : Evaluation :=
  { evaluation with events := earlier ++ evaluation.events }

def start (state : State) : Evaluation :=
  { state, finished := false, events := [] }

/-- Goes on from the state of an evaluation, unless it met a quit. -/
def andThen (evaluation : Evaluation) (onward : State → Evaluation) : Evaluation :=
  if evaluation.finished then evaluation
  else (onward evaluation.state).after evaluation.events

end Evaluation

namespace State

def evaluateToken (state : State) (token : String) : Evaluation :=
  match state.feed token with
  | .ok reply =>
      { state := reply.state, finished := reply.quit, events := reply.lines.map .printed }
  | .error fault => { state, finished := false, events := [.failed fault] }

def evaluate (state : State) : List String → Evaluation
  | [] => .start state
  | token :: rest => (state.evaluateToken token).andThen fun after => after.evaluate rest

def evaluateLines (state : State) : List String → Evaluation
  | [] => .start state
  | line :: rest =>
      (state.evaluate (Text.tokens line)).andThen fun after => after.evaluateLines rest

/-- The states in which lines are asked for: the one before each line that is
read, and the last one if no quit was met. -/
def asking (state : State) : List String → List State
  | [] => [state]
  | line :: rest =>
      let evaluation := state.evaluate (Text.tokens line)
      state :: if evaluation.finished then [] else evaluation.state.asking rest

end State

namespace Evaluation

@[simp] theorem start_andThen (state : State) (onward : State → Evaluation) :
    (start state).andThen onward = onward state := rfl

@[simp] theorem andThen_start (evaluation : Evaluation) :
    evaluation.andThen start = evaluation := by
  obtain ⟨state, finished, events⟩ := evaluation
  cases finished with
  | false => simp [andThen, start, after]
  | true => rfl

theorem andThen_assoc (evaluation : Evaluation) (second third : State → Evaluation) :
    (evaluation.andThen second).andThen third =
      evaluation.andThen fun state => (second state).andThen third := by
  obtain ⟨state, finished, events⟩ := evaluation
  cases finished with
  | true => rfl
  | false =>
      simp only [andThen, after, Bool.false_eq_true, if_false]
      split <;> simp

end Evaluation

namespace State

theorem evaluate_append (state : State) (first second : List String) :
    state.evaluate (first ++ second) =
      (state.evaluate first).andThen fun after => after.evaluate second := by
  induction first generalizing state with
  | nil => rfl
  | cons token rest ih =>
      simp only [List.cons_append, evaluate, ih, Evaluation.andThen_assoc]

theorem evaluateLines_eq_evaluate (state : State) (lines : List String) :
    state.evaluateLines lines = state.evaluate (lines.flatMap Text.tokens) := by
  induction lines generalizing state with
  | nil => rfl
  | cons line rest ih =>
      simp only [evaluateLines, List.flatMap_cons, evaluate_append, ih]

end State

namespace Listing

def heading : String :=
  "<token>\t<operation>"

def entry (token : String) : String :=
  match Operation.parse token with
  | .ok operation => operation.label
  | .error fault => fault.message

def line (token : String) : String :=
  token ++ "\t" ++ entry token

def ofLines (input : List String) : List String :=
  heading :: (input.flatMap Text.tokens).map line

end Listing

end WordCalc
