import WordCalc.Evaluation
import WordCalc.Proofs.Denotation
import WordCalc.Proofs.Run

/-!
Evaluations as runs.

An evaluation takes the machine through the run of its tokens up to and
including the first quit, and reports the outcomes of the steps in order. So
what stands behind a quit is not looked at, and a token that fails has no say
in what becomes of the others.
-/

namespace WordCalc

/-- The tokens up to and including the first `q`. -/
def upToQuit : List String → List String
  | [] => []
  | token :: rest => token :: if token = "q" then [] else upToQuit rest

theorem upToQuit_append_of_mem {tokens : List String} (quits : "q" ∈ tokens)
    (behind : List String) : upToQuit (tokens ++ behind) = upToQuit tokens := by
  induction tokens with
  | nil => cases quits
  | cons token rest ih =>
      rw [List.cons_append, upToQuit, upToQuit]
      by_cases quit : token = "q"
      · rw [if_pos quit, if_pos quit]
      · have later : "q" ∈ rest := (List.mem_cons.mp quits).resolve_left fun same => quit same.symm
        rw [if_neg quit, if_neg quit, ih later]

theorem upToQuit_of_not_mem {tokens : List String} (goesOn : "q" ∉ tokens) :
    upToQuit tokens = tokens := by
  induction tokens with
  | nil => rfl
  | cons token rest ih =>
      have other : ¬ token = "q" := fun same => goesOn (same ▸ List.mem_cons_self)
      rw [upToQuit, if_neg other, ih fun later => goesOn (List.mem_cons_of_mem token later)]

namespace Outcome

def events (outcome : Outcome) : List Event :=
  match outcome.result with
  | .ok _ => outcome.lines.map .printed
  | .error fault => [.failed fault]

end Outcome

namespace State

theorem evaluateToken_eq (state : State) (token : String) :
    state.evaluateToken token =
      { state := (state.step (.token token)).state
        finished := token == "q"
        events := (state.step (.token token)).events } := by
  have quits := Operation.parse_eq_apply_iff_eq token .quit
  cases asked : (Step.token token).operation? with
  | error fault =>
      have unread : Operation.parse token = .error fault := asked
      have goesOn : (token == "q") = false := by
        rw [beq_eq_false_iff_ne]
        intro quit
        rw [quits.mpr quit] at unread
        cases unread
      rw [evaluateToken, feed, unread, step_of_unread asked, goesOn]
      rfl
  | ok operation =>
      have read : Operation.parse token = .ok operation := asked
      have saysSo : (operation == .apply .quit) = (token == "q") := by
        rw [Bool.eq_iff_iff, beq_iff_eq, beq_iff_eq, ← Except.ok.injEq, ← read]
        exact quits
      have fed : state.feed token = state.run operation := by rw [feed, read]; rfl
      rw [evaluateToken, fed, run]
      cases ran : state.next operation with
      | error fault =>
          -- A quit does not fail.
          have goesOn : (operation == .apply .quit) = false := by
            rw [beq_eq_false_iff_ne]
            rintro rfl
            cases ran
          rw [step_of_failed asked ran, ← saysSo, goesOn]
          rfl
      | ok after =>
          rw [step_of_done asked ran, ← saysSo]
          rfl

private theorem line?_events_step (state : State) (step : Step) :
    (state.step step).events.filterMap Event.line? = (state.step step).lines := by
  rw [State.step]
  split
  · rw [Outcome.events, List.filterMap_map]
    exact List.filterMap_some
  · rfl

private theorem fault?_events (outcome : Outcome) :
    outcome.events.filterMap Event.fault? = outcome.fault?.toList := by
  rw [Outcome.events, Outcome.fault?]
  cases outcome.result with
  | error fault => rfl
  | ok answer =>
      rw [List.filterMap_map]
      exact List.filterMap_none outcome.lines

/-! ### All tokens -/

theorem evaluate_eq (state : State) (tokens : List String) :
    state.evaluate tokens =
      { state := state.after ((upToQuit tokens).map .token)
        finished := decide ("q" ∈ tokens)
        events := (state.outcomes ((upToQuit tokens).map .token)).flatMap Outcome.events } := by
  induction tokens generalizing state with
  | nil => rfl
  | cons token rest ih =>
      rw [evaluate, evaluateToken_eq]
      by_cases quit : token = "q"
      · subst quit
        simp [Evaluation.andThen, upToQuit, after]
      · have other : ¬ "q" = token := fun same => quit same.symm
        simp [Evaluation.andThen, Evaluation.after, upToQuit, after, quit, other, ih]

theorem lines_evaluate (state : State) (tokens : List String) :
    (state.evaluate tokens).lines =
      (state.outcomes ((upToQuit tokens).map .token)).flatMap Outcome.lines := by
  rw [evaluate_eq, Evaluation.lines, List.filterMap_flatMap]
  refine List.flatMap_congr ?_
  exact forall_outcomes (fun _ => True)
    (fun step _ state _ => ⟨line?_events_step state step, trivial⟩) trivial

theorem faults_evaluate (state : State) (tokens : List String) :
    (state.evaluate tokens).faults =
      (state.outcomes ((upToQuit tokens).map .token)).filterMap Outcome.fault? := by
  rw [evaluate_eq, Evaluation.faults, List.filterMap_flatMap, List.filterMap_eq_flatMap_toList]
  exact List.flatMap_congr fun outcome _ => fault?_events outcome

theorem evaluateLines_append_of_quit (state : State) {lines : List String}
    (quits : "q" ∈ lines.flatMap Text.tokens) (behind : List String) :
    state.evaluateLines (lines ++ behind) = state.evaluateLines lines := by
  have finished : "q" ∈ lines.flatMap Text.tokens ++ behind.flatMap Text.tokens :=
    List.mem_append_left _ quits
  rw [evaluateLines_eq_evaluate, evaluateLines_eq_evaluate, List.flatMap_append, evaluate_eq,
    evaluate_eq, upToQuit_append_of_mem quits, decide_eq_true quits, decide_eq_true finished]

theorem asking_append_of_quit (state : State) {lines : List String}
    (quits : "q" ∈ lines.flatMap Text.tokens) (behind : List String) :
    state.asking (lines ++ behind) = state.asking lines := by
  induction lines generalizing state with
  | nil => cases quits
  | cons line rest ih =>
      rw [List.flatMap_cons, List.mem_append] at quits
      rw [List.cons_append, asking, asking, evaluate_eq]
      by_cases here : "q" ∈ Text.tokens line
      · rw [if_pos (decide_eq_true here), if_pos (decide_eq_true here)]
      · rw [ih _ (quits.resolve_left here)]

end State

end WordCalc
