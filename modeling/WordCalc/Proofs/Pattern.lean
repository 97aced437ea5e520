/-!
Patterns of texts with named groups.

A pattern matches a whole text in certain ways, and a way to match captures the
text of every named group that takes part in it. Two groups of different
alternatives may have the same name. `Pattern.Searches` is what is asked of a
search for matches of whole texts: it finds a way to match a text if there is one,
and tells of every name what a group of that name captured. `Pattern.FindsAll` is
what is asked of a search for all matches inside of a text.
-/

namespace WordCalc

inductive Pattern
  | word (chars : List Char)
  /-- One character of one of the ranges. -/
  | oneOf (ranges : List (Char × Char))
  /-- One character that is none of these. -/
  | noneOf (chars : List Char)
  | sequence (first second : Pattern)
  | choice (first second : Pattern)
  | optional (pattern : Pattern)
  /-- The pattern once or more often. -/
  | repeated (pattern : Pattern)
  | group (name : String) (pattern : Pattern)

/-- The names of groups and the texts that they took, in the order in which the
groups end. -/
abbrev Captures := List (String × List Char)

abbrev Groups := String → Option (List Char)

/-- Of several groups of one name the last one counts. -/
def Captures.groups (captures : Captures) : Groups :=
  fun name => captures.reverse.lookup name

namespace Pattern

private def escaped (c : Char) : List Char :=
  if c ∈ ['+', '*', '?', '|', '(', ')', '[', ']', '.', '\\'] then ['\\', c] else [c]

private def spellRange : Char × Char → List Char
  | (first, last) => if first = last then [first] else [first, '-', last]

private def spellBlank : Char → List Char
  | ' ' => ['\\', 'x', '2', '0']
  | '\t' => ['\\', 't']
  | '\n' => ['\\', 'n']
  | '\r' => ['\\', 'r']
  | '\x0c' => ['\\', 'f']
  | '\x0b' => ['\\', 'v']
  | c => [c]

/-- How a pattern is written whose choices stand outside of everything else. -/
def spell : Pattern → List Char
  | word chars => chars.flatMap escaped
  | oneOf ranges => '[' :: (ranges.flatMap spellRange ++ [']'])
  | noneOf chars => '[' :: '^' :: (chars.flatMap spellBlank ++ [']'])
  | sequence first second => first.spell ++ second.spell
  | choice first second => first.spell ++ '|' :: second.spell
  | optional pattern => pattern.spell ++ ['?']
  | repeated pattern => pattern.spell ++ ['+']
  | group name pattern => ['(', '?', '<'] ++ name.toList ++ '>' :: (pattern.spell ++ [')'])

/-- Lines without what only a reader looks at: blanks, and comments up to the end
of a line. -/
def bare (lines : List String) : List Char :=
  lines.flatMap fun line => (line.toList.takeWhile (· ≠ '#')).filter (· ≠ ' ')

/-- One line of known characters, so that a line can be looked at as a list without
being decoded. -/
theorem bare_cons (line : List Char) (lines : List String) :
    bare (String.ofList line :: lines) =
      (line.takeWhile (· ≠ '#')).filter (· ≠ ' ') ++ bare lines := by
  rw [bare, List.flatMap_cons, String.toList_ofList]
  rfl

/-! ### Matching -/

def InRanges (ranges : List (Char × Char)) (c : Char) : Prop :=
  ∃ range ∈ ranges, range.1 ≤ c ∧ c ≤ range.2

theorem not_inRanges_nil (c : Char) : ¬ InRanges [] c := by
  simp [InRanges]

theorem inRanges_cons_iff (range : Char × Char) (ranges : List (Char × Char)) (c : Char) :
    InRanges (range :: ranges) c ↔ range.1 ≤ c ∧ c ≤ range.2 ∨ InRanges ranges c := by
  simp [InRanges]

inductive Matches : Pattern → List Char → Captures → Prop
  | word (chars : List Char) : Matches (word chars) chars []
  | oneOf {ranges : List (Char × Char)} {c : Char} :
      InRanges ranges c → Matches (oneOf ranges) [c] []
  | noneOf {chars : List Char} {c : Char} : c ∉ chars → Matches (noneOf chars) [c] []
  | sequence {first second : Pattern} {left right : List Char} {captures more : Captures} :
      Matches first left captures → Matches second right more →
        Matches (sequence first second) (left ++ right) (captures ++ more)
  | former {first second : Pattern} {text : List Char} {captures : Captures} :
      Matches first text captures → Matches (choice first second) text captures
  | latter {first second : Pattern} {text : List Char} {captures : Captures} :
      Matches second text captures → Matches (choice first second) text captures
  | skipped (pattern : Pattern) : Matches (optional pattern) [] []
  | taken {pattern : Pattern} {text : List Char} {captures : Captures} :
      Matches pattern text captures → Matches (optional pattern) text captures
  | once {pattern : Pattern} {text : List Char} {captures : Captures} :
      Matches pattern text captures → Matches (repeated pattern) text captures
  | again {pattern : Pattern} {left right : List Char} {captures more : Captures} :
      Matches pattern left captures → Matches (repeated pattern) right more →
        Matches (repeated pattern) (left ++ right) (captures ++ more)
  | group (name : String) {pattern : Pattern} {text : List Char} {captures : Captures} :
      Matches pattern text captures →
        Matches (group name pattern) text (captures ++ [(name, text)])

variable {text : List Char} {captures : Captures}

theorem matches_word_iff (chars : List Char) :
    (word chars).Matches text captures ↔ text = chars ∧ captures = [] := by
  constructor
  · intro found
    cases found
    exact ⟨rfl, rfl⟩
  · intro parts
    obtain ⟨rfl, rfl⟩ := parts
    exact .word text

theorem matches_oneOf_iff (ranges : List (Char × Char)) :
    (oneOf ranges).Matches text captures ↔
      ∃ c, text = [c] ∧ InRanges ranges c ∧ captures = [] := by
  constructor
  · intro found
    cases found with
    | oneOf inRanges => exact ⟨_, rfl, inRanges, rfl⟩
  · intro parts
    obtain ⟨c, rfl, inRanges, rfl⟩ := parts
    exact .oneOf inRanges

theorem matches_noneOf_iff (chars : List Char) :
    (noneOf chars).Matches text captures ↔ ∃ c, text = [c] ∧ c ∉ chars ∧ captures = [] := by
  constructor
  · intro found
    cases found with
    | noneOf other => exact ⟨_, rfl, other, rfl⟩
  · intro parts
    obtain ⟨c, rfl, other, rfl⟩ := parts
    exact .noneOf other

theorem matches_sequence_iff (first second : Pattern) :
    (sequence first second).Matches text captures ↔
      ∃ left right taken more, text = left ++ right ∧ captures = taken ++ more ∧
        first.Matches left taken ∧ second.Matches right more := by
  constructor
  · intro found
    cases found with
    | sequence inFirst inSecond => exact ⟨_, _, _, _, rfl, rfl, inFirst, inSecond⟩
  · intro parts
    obtain ⟨left, right, taken, more, rfl, rfl, inFirst, inSecond⟩ := parts
    exact .sequence inFirst inSecond

theorem matches_choice_iff (first second : Pattern) :
    (choice first second).Matches text captures ↔
      first.Matches text captures ∨ second.Matches text captures := by
  constructor
  · intro found
    cases found with
    | former inFirst => exact Or.inl inFirst
    | latter inSecond => exact Or.inr inSecond
  · intro either
    rcases either with inFirst | inSecond
    · exact .former inFirst
    · exact .latter inSecond

theorem matches_optional_iff (pattern : Pattern) :
    (optional pattern).Matches text captures ↔
      text = [] ∧ captures = [] ∨ pattern.Matches text captures := by
  constructor
  · intro found
    cases found with
    | skipped => exact Or.inl ⟨rfl, rfl⟩
    | taken inPattern => exact Or.inr inPattern
  · intro either
    rcases either with ⟨rfl, rfl⟩ | inPattern
    · exact .skipped pattern
    · exact .taken inPattern

theorem matches_group_iff (name : String) (pattern : Pattern) :
    (group name pattern).Matches text captures ↔
      ∃ inside, captures = inside ++ [(name, text)] ∧ pattern.Matches text inside := by
  constructor
  · intro found
    cases found with
    | group _ inPattern => exact ⟨_, rfl, inPattern⟩
  · intro parts
    obtain ⟨inside, rfl, inPattern⟩ := parts
    exact .group name inPattern

/-- Single characters, repeated, are all that there is to a text, and capture
nothing. -/
theorem matches_repeated_iff {pattern : Pattern} {holds : Char → Prop}
    (single : ∀ text captures,
      pattern.Matches text captures ↔ ∃ c, text = [c] ∧ holds c ∧ captures = []) :
    (repeated pattern).Matches text captures ↔
      text ≠ [] ∧ (∀ c ∈ text, holds c) ∧ captures = [] := by
  constructor
  · intro found
    -- Induction on the way to match: behind the first character the same pattern is
    -- matched again.
    generalize same : repeated pattern = whole at found
    induction found with
    | once inPattern =>
        cases same
        obtain ⟨c, rfl, here, rfl⟩ := (single _ _).mp inPattern
        exact ⟨List.cons_ne_nil c [], by simpa using here, rfl⟩
    | again inPattern _ _ ih =>
        cases same
        obtain ⟨c, rfl, here, rfl⟩ := (single _ _).mp inPattern
        obtain ⟨_, further, rfl⟩ := ih rfl
        exact ⟨List.cons_ne_nil c _, List.forall_mem_cons.mpr ⟨here, further⟩, rfl⟩
    | word | oneOf | noneOf | sequence | former | latter | skipped | taken | group => cases same
  · intro parts
    obtain ⟨nonempty, everywhere, rfl⟩ := parts
    induction text with
    | nil => exact absurd rfl nonempty
    | cons first rest ih =>
        obtain ⟨here, further⟩ := List.forall_mem_cons.mp everywhere
        have inPattern : pattern.Matches [first] [] :=
          (single _ _).mpr ⟨first, rfl, here, rfl⟩
        cases rest with
        | nil => exact .once inPattern
        | cons second others =>
            exact .again inPattern (ih (List.cons_ne_nil _ _) further)

/-! ### Searching -/

def names : Pattern → List String
  | word _ | oneOf _ | noneOf _ => []
  | sequence first second | choice first second => first.names ++ second.names
  | optional pattern | repeated pattern => pattern.names
  | group name pattern => name :: pattern.names

def partaking (pattern : Pattern) (groups : Groups) : List (String × List Char) :=
  pattern.names.eraseDups.filterMap fun name => (groups name).map (name, ·)

/-- The search finds a match if the whole text can be matched, and no other: what
it tells of the names is what was captured in some way to match the text. -/
structure Searches (pattern : Pattern) (search : List Char → Option Groups) : Prop where
  finds : ∀ text captures, pattern.Matches text captures → search text ≠ none
  sound : ∀ text groups, search text = some groups →
    ∃ captures, pattern.Matches text captures ∧ groups = captures.groups

def Accepts (pattern : Pattern) (text : List Char) : Prop :=
  ∃ captures, pattern.Matches text captures

/-- A match inside of a text: no other one begins further left, and no longer one
begins at the same place. -/
structure IsForemost (pattern : Pattern) (before found behind : List Char) : Prop where
  accepted : pattern.Accepts found
  leftmost : ∀ earlier other rest, before ++ (found ++ behind) = earlier ++ (other ++ rest) →
    pattern.Accepts other → before.length ≤ earlier.length
  longest : ∀ other rest, found ++ behind = other ++ rest → pattern.Accepts other →
    other.length ≤ found.length

/-- All matches in a text that are not empty, as a search from left to right finds
them: each is the foremost one behind the one before it. -/
inductive FindsAll (pattern : Pattern) : List Char → List (List Char) → Prop
  | nothing {text : List Char} :
      (∀ before found behind, text = before ++ (found ++ behind) → ¬ pattern.Accepts found) →
        FindsAll pattern text []
  | next {before found behind : List Char} {others : List (List Char)} :
      found ≠ [] → pattern.IsForemost before found behind → FindsAll pattern behind others →
        FindsAll pattern (before ++ (found ++ behind)) (found :: others)

end Pattern

end WordCalc
