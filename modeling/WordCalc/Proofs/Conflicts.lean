import Mathlib.Data.List.Basic
import Mathlib.Data.List.Induction
import WordCalc.CommandLine.Arguments

/-!
Flags that exclude each other.

Of all flags there are two pairs that cannot be given together. Flags are taken
from left to right, and the first one that finds its counterpart taken already is
the conflict. Without a conflict the options depend on which flags there are, and
on the prompt and the lines that were given last, but not on the order.
-/

namespace WordCalc.CommandLine

inductive Flag.Excludes : Flag → Flag → Prop
  | expression : Excludes .expression .prompt
  | prompt : Excludes .prompt .expression
  | grammar : Excludes .grammar .listing
  | listing : Excludes .listing .grammar

def Compatible (flags : List Flag) : Prop :=
  ∀ flag ∈ flags, ∀ other ∈ flags, ¬ flag.Excludes other

/-- The first flag that excludes one in front of it, and that one. -/
def LeftmostConflict (flags : List Flag) (later earlier : Flag) : Prop :=
  ∃ before behind, flags = before ++ later :: behind ∧ Compatible before ∧
    earlier ∈ before ∧ later.Excludes earlier

theorem not_compatible_iff (flags : List Flag) :
    ¬ Compatible flags ↔
      .listing ∈ flags ∧ .grammar ∈ flags ∨ .prompt ∈ flags ∧ .expression ∈ flags := by
  constructor
  · intro conflicting
    simp only [Compatible, not_forall, not_not] at conflicting
    obtain ⟨flag, member, other, memberToo, excludes⟩ := conflicting
    cases excludes with
    | expression => exact .inr ⟨memberToo, member⟩
    | prompt => exact .inr ⟨member, memberToo⟩
    | grammar => exact .inl ⟨memberToo, member⟩
    | listing => exact .inl ⟨member, memberToo⟩
  · rintro (⟨listing, grammar⟩ | ⟨prompt, expression⟩) compatible
    · exact compatible .listing listing .grammar grammar .listing
    · exact compatible .prompt prompt .expression expression .prompt

private theorem Compatible.append_singleton {flags : List Flag} {flag : Flag}
    (compatible : Compatible flags) (fits : ∀ earlier ∈ flags, ¬ flag.Excludes earlier) :
    Compatible (flags ++ [flag]) := by
  intro one member other memberToo excludes
  rw [List.mem_append, List.mem_singleton] at member memberToo
  rcases member with before | rfl
  · rcases memberToo with beforeToo | rfl
    · exact compatible one before other beforeToo excludes
    · refine fits one before ?_
      cases excludes <;> constructor
  · rcases memberToo with before | rfl
    · exact fits other before excludes
    · cases excludes

theorem compatible_or_conflict (flags : List Flag) :
    Compatible flags ∨ ∃ later earlier, LeftmostConflict flags later earlier := by
  induction flags using List.reverseRecOn with
  | nil => exact .inl fun flag member => by cases member
  | append_singleton before flag ih =>
      rcases ih with compatible | ⟨later, earlier, front, behind, rfl, conflict⟩
      · by_cases fits : ∀ earlier ∈ before, ¬ flag.Excludes earlier
        · exact .inl (compatible.append_singleton fits)
        · simp only [not_forall, not_not] at fits
          obtain ⟨earlier, member, excludes⟩ := fits
          exact .inr ⟨flag, earlier, before, [], rfl, compatible, member, excludes⟩
      · refine .inr ⟨later, earlier, front, behind ++ [flag], ?_, conflict⟩
        rw [List.append_assoc, List.cons_append]

theorem LeftmostConflict.not_compatible {flags : List Flag} {later earlier : Flag}
    (conflict : LeftmostConflict flags later earlier) : ¬ Compatible flags := by
  obtain ⟨before, behind, rfl, _, member, excludes⟩ := conflict
  intro compatible
  exact compatible later (List.mem_append_right _ List.mem_cons_self) earlier
    (List.mem_append_left _ member) excludes

inductive Setting
  | verbose
  | grammar
  | listing
  | lines (input : List String)
  | prompt (text : String)
  deriving DecidableEq

namespace Setting

def flag : Setting → Flag
  | .verbose => .verbose
  | .grammar => .grammar
  | .listing => .listing
  | .lines _ => .expression
  | .prompt _ => .prompt

def request : Setting → Request
  | .verbose => .verbose
  | .grammar => .grammar
  | .listing => .listing
  | .lines input => .lines input
  | .prompt text => .prompt text

def lines? : Setting → Option (List String)
  | .lines input => some input
  | .verbose | .grammar | .listing | .prompt _ => none

def prompt? : Setting → Option String
  | .prompt text => some text
  | .verbose | .grammar | .listing | .lines _ => none

end Setting

/-- The options that settings without a conflict come to. -/
def Options.setBy (settings : List Setting) : Options where
  verbose := decide (.verbose ∈ settings.map Setting.flag)
  task :=
    if .listing ∈ settings.map Setting.flag then .list
    else if .grammar ∈ settings.map Setting.flag then .showGrammar
    else .evaluate
  lines := (settings.filterMap Setting.lines?).getLast?
  prompt := (settings.filterMap Setting.prompt?).getLast?

namespace Options

private theorem isSome_getLast?_iff {α : Type} {pick : Setting → Option α} {flag : Flag}
    (picks : ∀ setting, (pick setting).isSome = true ↔ setting.flag = flag)
    (settings : List Setting) :
    (settings.filterMap pick).getLast?.isSome = true ↔ flag ∈ settings.map Setting.flag := by
  constructor
  · intro isSome
    obtain ⟨picked, last⟩ := Option.isSome_iff_exists.mp isSome
    obtain ⟨setting, member, found⟩ := List.mem_filterMap.mp (List.mem_of_getLast? last)
    have named : setting.flag = flag := (picks setting).mp (by rw [found]; rfl)
    exact named ▸ List.mem_map_of_mem member
  · intro member
    obtain ⟨setting, given, named⟩ := List.mem_map.mp member
    obtain ⟨picked, found⟩ := Option.isSome_iff_exists.mp ((picks setting).mpr named)
    rw [List.getLast?_isSome]
    exact List.ne_nil_of_mem (List.mem_filterMap.mpr ⟨setting, given, found⟩)

theorem setBy_lines_isSome_iff (settings : List Setting) :
    (setBy settings).lines.isSome = true ↔ .expression ∈ settings.map Setting.flag := by
  refine isSome_getLast?_iff (fun setting => ?_) settings
  cases setting <;> simp [Setting.lines?, Setting.flag]

theorem setBy_prompt_isSome_iff (settings : List Setting) :
    (setBy settings).prompt.isSome = true ↔ .prompt ∈ settings.map Setting.flag := by
  refine isSome_getLast?_iff (fun setting => ?_) settings
  cases setting <;> simp [Setting.prompt?, Setting.flag]

theorem setBy_task_eq_list_iff (settings : List Setting) :
    (setBy settings).task = .list ↔ .listing ∈ settings.map Setting.flag := by
  rw [setBy]
  by_cases listing : .listing ∈ settings.map Setting.flag
  · simp only [listing, if_true]
  · by_cases grammar : .grammar ∈ settings.map Setting.flag
    · simp only [listing, grammar, if_true, if_false, reduceCtorEq]
    · simp only [listing, grammar, if_false, reduceCtorEq]

theorem setBy_task_eq_showGrammar_iff (settings : List Setting) :
    (setBy settings).task = .showGrammar ↔
      .listing ∉ settings.map Setting.flag ∧ .grammar ∈ settings.map Setting.flag := by
  rw [setBy]
  by_cases listing : .listing ∈ settings.map Setting.flag
  · simp only [listing, if_true, not_true_eq_false, false_and, reduceCtorEq]
  · by_cases grammar : .grammar ∈ settings.map Setting.flag
    · simp only [listing, grammar, if_true, if_false, not_false_eq_true, and_self]
    · simp only [listing, grammar, if_false, and_false, reduceCtorEq]

theorem take_of_fits {settings : List Setting} {setting : Setting}
    (fits : ∀ earlier ∈ settings.map Setting.flag, ¬ setting.flag.Excludes earlier) :
    (setBy settings).take setting.request = .ok (setBy (settings ++ [setting])) := by
  cases setting with
  | verbose => simp [take, setBy, Setting.request, Setting.flag, Setting.lines?, Setting.prompt?]
  | grammar =>
      have noListing : .listing ∉ settings.map Setting.flag := fun member => fits _ member .grammar
      have notListing : (setBy settings).task ≠ .list :=
        fun lists => noListing ((setBy_task_eq_list_iff settings).mp lists)
      simp only [take, Setting.request, if_neg notListing]
      simp [setBy, Setting.flag, Setting.lines?, Setting.prompt?, List.mem_append, noListing]
  | listing =>
      have noGrammar : .grammar ∉ settings.map Setting.flag := fun member => fits _ member .listing
      have notGrammar : (setBy settings).task ≠ .showGrammar :=
        fun shows => noGrammar ((setBy_task_eq_showGrammar_iff settings).mp shows).2
      simp only [take, Setting.request, if_neg notGrammar]
      simp [setBy, Setting.flag, Setting.lines?, Setting.prompt?]
  | lines input =>
      have noPrompt : ¬ (setBy settings).prompt.isSome = true := fun prompts =>
        fits _ ((setBy_prompt_isSome_iff settings).mp prompts) .expression
      simp only [take, Setting.request, if_neg noPrompt]
      simp [setBy, Setting.flag, Setting.lines?, Setting.prompt?]
  | prompt text =>
      have noLines : ¬ (setBy settings).lines.isSome = true := fun given =>
        fits _ ((setBy_lines_isSome_iff settings).mp given) .prompt
      simp only [take, Setting.request, if_neg noLines]
      simp [setBy, Setting.flag, Setting.lines?, Setting.prompt?]

theorem take_of_excluded {settings : List Setting} {later : Setting} {earlier : Flag}
    (compatible : Compatible (settings.map Setting.flag))
    (member : earlier ∈ settings.map Setting.flag) (excludes : later.flag.Excludes earlier) :
    (setBy settings).take later.request = .error (.usage (.conflict later.flag earlier)) := by
  cases later with
  | verbose => cases excludes
  | grammar =>
      cases excludes
      exact if_pos ((setBy_task_eq_list_iff settings).mpr member)
  | listing =>
      cases excludes
      have noListing : .listing ∉ settings.map Setting.flag := fun memberToo =>
        compatible _ memberToo _ member .listing
      exact if_pos ((setBy_task_eq_showGrammar_iff settings).mpr ⟨noListing, member⟩)
  | lines input =>
      cases excludes
      exact if_pos ((setBy_prompt_isSome_iff settings).mpr member)
  | prompt text =>
      cases excludes
      exact if_pos ((setBy_lines_isSome_iff settings).mpr member)

theorem foldlM_take_of_compatible {settings : List Setting}
    (compatible : Compatible (settings.map Setting.flag)) :
    (settings.map Setting.request).foldlM take {} = .ok (setBy settings) := by
  induction settings using List.reverseRecOn with
  | nil => rfl
  | append_singleton before setting ih =>
      rw [List.map_append, List.map_singleton] at compatible
      have front : Compatible (before.map Setting.flag) := fun one member other memberToo =>
        compatible one (List.mem_append_left _ member) other (List.mem_append_left _ memberToo)
      have fits : ∀ earlier ∈ before.map Setting.flag, ¬ setting.flag.Excludes earlier :=
        fun earlier member =>
          compatible setting.flag (List.mem_append_right _ List.mem_cons_self) earlier
            (List.mem_append_left _ member)
      rw [List.map_append, List.foldlM_append, ih front]
      change [setting.request].foldlM take (setBy before) = _
      rw [List.foldlM_cons, take_of_fits fits]
      rfl

theorem foldlM_take_of_conflict {settings : List Setting} {later earlier : Flag}
    (conflict : LeftmostConflict (settings.map Setting.flag) later earlier) :
    (settings.map Setting.request).foldlM take {} =
      .error (.usage (.conflict later earlier)) := by
  obtain ⟨before, behind, whole, compatible, member, excludes⟩ := conflict
  obtain ⟨front, back, rfl, rfl, found⟩ := List.map_eq_append_iff.mp whole
  obtain ⟨setting, rest, rfl, rfl, rfl⟩ := List.map_eq_cons_iff.mp found
  rw [List.map_append, List.foldlM_append, foldlM_take_of_compatible compatible, List.map_cons]
  change (setting.request :: rest.map Setting.request).foldlM take (setBy front) = _
  rw [List.foldlM_cons, take_of_excluded compatible member excludes]
  rfl

end Options

end WordCalc.CommandLine
