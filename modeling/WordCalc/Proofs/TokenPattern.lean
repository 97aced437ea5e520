import WordCalc.Proofs.Pattern
import WordCalc.Proofs.Spacing

/-!
Tokens as the matches of a pattern.

A token is one or more characters that do not separate. Every search for all
matches of this pattern, from left to right, finds the tokens of a text and
nothing else.
-/

namespace WordCalc.Text

def tokenPattern : Pattern :=
  .repeated (.noneOf [' ', '\t', '\n', '\r', '\x0c', '\x0b'])

theorem spell_tokenPattern : tokenPattern.spell = "[^\\x20\\t\\n\\r\\f\\v]+".toList := by
  decide +kernel

private theorem not_separator_iff (c : Char) :
    c ∉ [' ', '\t', '\n', '\r', '\x0c', '\x0b'] ↔ isSeparator c = false := by
  rw [← isSeparator_iff, Bool.not_eq_true]

theorem accepts_tokenPattern_iff (text : List Char) : tokenPattern.Accepts text ↔ IsWord text := by
  simp only [Pattern.Accepts, tokenPattern,
    Pattern.matches_repeated_iff fun _ _ => Pattern.matches_noneOf_iff _, not_separator_iff, IsWord,
    exists_and_left, exists_eq, and_true]

private theorem accepts_singleton {c : Char} (inside : isSeparator c = false) :
    tokenPattern.Accepts [c] :=
  (accepts_tokenPattern_iff [c]).mpr ⟨List.cons_ne_nil c [], List.forall_mem_singleton.mpr inside⟩

private theorem separators_in_front {before found behind : List Char}
    (foremost : tokenPattern.IsForemost before found behind) :
    ∀ c ∈ before, isSeparator c = true := by
  intro c member
  by_contra inside
  obtain ⟨earlier, more, rfl⟩ := List.append_of_mem member
  have atMost := foremost.leftmost earlier [c] (more ++ (found ++ behind)) (by simp)
    (accepts_singleton (by simpa using inside))
  rw [List.length_append, List.length_cons] at atMost
  omega

/-- A match that is as long as can be is followed by a separator, if by anything. -/
private theorem separator_behind {before found behind : List Char} {c : Char}
    (foremost : tokenPattern.IsForemost before found (c :: behind)) : isSeparator c = true := by
  by_contra inside
  obtain ⟨_, inFound⟩ := (accepts_tokenPattern_iff found).mp foremost.accepted
  have longer : tokenPattern.Accepts (found ++ [c]) := by
    rw [accepts_tokenPattern_iff, IsWord, List.forall_mem_append, List.forall_mem_singleton]
    exact ⟨by simp, inFound, by simpa using inside⟩
  have atMost := foremost.longest (found ++ [c]) behind (by simp) longer
  rw [List.length_append, List.length_singleton] at atMost
  omega

theorem scan_of_findsAll {text : List Char} {found : List (List Char)}
    (finds : tokenPattern.FindsAll text found) : scan [] text = found := by
  induction finds with
  | @nothing text none =>
      have separate : ∀ c ∈ text, isSeparator c = true := by
        intro c member
        by_contra inside
        obtain ⟨before, behind, rfl⟩ := List.append_of_mem member
        exact none before [c] behind rfl (accepts_singleton (by simpa using inside))
      have skipped := scan_of_separators text [] separate
      rwa [List.append_nil] at skipped
  | @next before found behind others _ foremost _ ih =>
      have isWord := (accepts_tokenPattern_iff found).mp foremost.accepted
      rw [scan_of_separators _ _ (separators_in_front foremost)]
      cases behind with
      | nil =>
          rw [← ih, List.append_nil, scan_of_isWord isWord]
          rfl
      | cons c rest =>
          have separates := separator_behind foremost
          have skipped := scan_of_separators [c] rest (List.forall_mem_singleton.mpr separates)
          rw [scan_append_separator [] _ _ separates, scan_of_isWord isWord, ← skipped]
          exact congrArg (found :: ·) ih

private theorem findsAll_separator {c : Char} {text : List Char} {found : List (List Char)}
    (separates : isSeparator c = true) (finds : tokenPattern.FindsAll text found) :
    tokenPattern.FindsAll (c :: text) found := by
  -- A match in the longer text cannot begin with its first character.
  have further : ∀ earlier other rest, c :: text = earlier ++ (other ++ rest) →
      tokenPattern.Accepts other →
        ∃ more, earlier = c :: more ∧ text = more ++ (other ++ rest) := by
    intro earlier other rest same accepted
    cases earlier with
    | cons first more =>
        obtain ⟨rfl, behind⟩ := List.cons.inj same
        exact ⟨more, rfl, behind⟩
    | nil =>
        obtain ⟨nonempty, inside⟩ := (accepts_tokenPattern_iff other).mp accepted
        obtain ⟨first, more, rfl⟩ := List.exists_cons_of_ne_nil nonempty
        obtain rfl : c = first := (List.cons.inj same).1
        have inside := inside c List.mem_cons_self
        rw [separates] at inside
        cases inside
  cases finds with
  | nothing none =>
      refine .nothing fun earlier other rest same accepted => ?_
      obtain ⟨more, _, behind⟩ := further earlier other rest same accepted
      exact none more other rest behind accepted
  | @next before _ behind _ nonempty foremost others =>
      rw [← List.cons_append]
      refine .next nonempty ⟨foremost.accepted, ?_, foremost.longest⟩ others
      intro earlier other rest same accepted
      obtain ⟨more, rfl, inText⟩ := further earlier other rest same accepted
      exact Nat.succ_le_succ (foremost.leftmost more other rest inText accepted)

/-- A word is the foremost match where it stands, with a separator or nothing
behind it. -/
private theorem findsAll_word {word behind : List Char} {others : List (List Char)}
    (isWord : IsWord word) (ends : ∀ c ∈ behind.head?, isSeparator c = true)
    (finds : tokenPattern.FindsAll behind others) :
    tokenPattern.FindsAll (word ++ behind) (word :: others) := by
  have foremost : tokenPattern.IsForemost [] word behind := by
    refine ⟨(accepts_tokenPattern_iff word).mpr isWord, fun _ _ _ _ _ => Nat.zero_le _, ?_⟩
    intro other rest same accepted
    obtain ⟨_, inside⟩ := (accepts_tokenPattern_iff other).mp accepted
    rcases List.append_eq_append_iff.mp same with ⟨more, rfl, inBehind⟩ | ⟨more, rfl, _⟩
    · cases more with
      | nil => simp
      | cons c others =>
          subst inBehind
          have separates := ends c rfl
          rw [inside c (List.mem_append_right _ List.mem_cons_self)] at separates
          cases separates
    · simp
  exact .next isWord.1 foremost finds

theorem findsAll_of_spaced {text : List Char} {words : List (List Char)}
    (spaced : Spaced text words) : tokenPattern.FindsAll text words := by
  have empty : tokenPattern.FindsAll [] [] := by
    refine .nothing fun before found behind same accepted => ?_
    have nonempty := ((accepts_tokenPattern_iff found).mp accepted).1
    simp [nonempty] at same
  induction spaced with
  | nothing => exact empty
  | separator separates _ ih => exact findsAll_separator separates ih
  | @last word isWord =>
      have alone := findsAll_word isWord (by simp) empty
      rwa [List.append_nil] at alone
  | word isWord separates _ ih =>
      refine findsAll_word isWord ?_ (findsAll_separator separates ih)
      rintro c ⟨⟩
      exact separates

theorem findsAll_tokenPattern_iff (text : List Char) (found : List (List Char)) :
    tokenPattern.FindsAll text found ↔ scan [] text = found := by
  constructor
  · exact scan_of_findsAll
  · rintro rfl
    exact findsAll_of_spaced (spaced_scan text)

/-- Whatever searches for all matches of the pattern finds the tokens. -/
theorem tokens_eq_search {search : List Char → List (List Char)}
    (finds : ∀ text, tokenPattern.FindsAll text (search text)) (line : String) :
    tokens line = (search line.toList).map String.ofList := by
  rw [tokens, (findsAll_tokenPattern_iff _ _).mp (finds line.toList)]

end WordCalc.Text
