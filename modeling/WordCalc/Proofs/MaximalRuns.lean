import WordCalc.Proofs.Spacing

/-!
Tokens as maximal runs.

A run is a stretch of a text with no separator in it, and it is maximal if no
longer one contains it. A separator keeps the runs on its two sides apart, and a
word is one maximal run. The tokens of a text are therefore its maximal runs,
from left to right, whatever separates them.
-/

namespace WordCalc.Text

/-- The positions of a text from `start` on and before `stop`. -/
structure Span where
  start : Nat
  stop : Nat

namespace Span

def chars (text : List Char) (span : Span) : List Char :=
  (text.drop span.start).take (span.stop - span.start)

/-- Where the positions are after more characters were put in front of the text. -/
def shift (places : Nat) (span : Span) : Span :=
  ⟨span.start + places, span.stop + places⟩

theorem shift_injective {places : Nat} {one other : Span}
    (same : one.shift places = other.shift places) : one = other := by
  obtain ⟨start, stop⟩ := one
  obtain ⟨otherStart, otherStop⟩ := other
  simp only [shift, mk.injEq] at same
  simp only [mk.injEq]
  omega

end Span

structure IsRun (text : List Char) (span : Span) : Prop where
  nonempty : span.start < span.stop
  inside : ∀ position, span.start ≤ position → position < span.stop →
    ∃ c, text[position]? = some c ∧ isSeparator c = false

/-- A run that no other one contains. -/
structure IsMaximalRun (text : List Char) (span : Span) : Prop where
  isRun : IsRun text span
  maximal : ∀ other, IsRun text other → other.start ≤ span.start → span.stop ≤ other.stop →
    other = span

theorem IsRun.stop_le {text : List Char} {span : Span} (isRun : IsRun text span) :
    span.stop ≤ text.length := by
  have nonempty := isRun.nonempty
  obtain ⟨c, found, _⟩ := isRun.inside (span.stop - 1) (by omega) (by omega)
  have last := (List.getElem?_eq_some_iff.mp found).1
  omega

section

variable {before after : List Char} {separator : Char}

theorem IsRun.in_front {span : Span} (isRun : IsRun before span) (more : List Char) :
    IsRun (before ++ more) span where
  nonempty := isRun.nonempty
  inside position atLeast below := by
    rw [List.getElem?_append_left (Nat.lt_of_lt_of_le below isRun.stop_le)]
    exact isRun.inside position atLeast below

private theorem getElem?_behind (before after : List Char) (separator : Char) (position : Nat) :
    (before ++ separator :: after)[position + (before.length + 1)]? = after[position]? := by
  rw [List.getElem?_append_right (by omega)]
  have further : position + (before.length + 1) - before.length = position + 1 := by omega
  rw [further, List.getElem?_cons_succ]

theorem IsRun.behind {span : Span} (isRun : IsRun after span) :
    IsRun (before ++ separator :: after) (span.shift (before.length + 1)) where
  nonempty := Nat.add_lt_add_right isRun.nonempty _
  inside position atLeast below := by
    simp only [Span.shift] at atLeast below
    obtain ⟨earlier, rfl⟩ := Nat.exists_eq_add_of_le' (Nat.le_of_add_left_le atLeast)
    rw [getElem?_behind]
    exact isRun.inside earlier (by omega) (by omega)

theorem isRun_append_iff (separates : isSeparator separator = true) (span : Span) :
    IsRun (before ++ separator :: after) span ↔
      IsRun before span ∨ ∃ other, IsRun after other ∧ other.shift (before.length + 1) = span := by
  constructor
  · intro isRun
    have nonempty := isRun.nonempty
    by_cases inFront : span.stop ≤ before.length
    · refine .inl ⟨nonempty, fun position atLeast below => ?_⟩
      have found := isRun.inside position atLeast below
      rwa [List.getElem?_append_left (Nat.lt_of_lt_of_le below inFront)] at found
    · by_cases behind : before.length < span.start
      · refine .inr ⟨⟨span.start - (before.length + 1), span.stop - (before.length + 1)⟩,
          ⟨?_, ?_⟩, ?_⟩
        · simp only
          omega
        · intro position atLeast below
          simp only at atLeast below
          rw [← getElem?_behind before after separator]
          exact isRun.inside _ (by omega) (by omega)
        · obtain ⟨start, stop⟩ := span
          simp only at behind nonempty
          simp only [Span.shift, Span.mk.injEq]
          omega
      · obtain ⟨c, found, inside⟩ := isRun.inside before.length (by omega) (by omega)
        rw [List.getElem?_append_right (Nat.le_refl _), Nat.sub_self, List.getElem?_cons_zero,
          Option.some.injEq] at found
        rw [← found, separates] at inside
        cases inside
  · rintro (inFront | ⟨other, behind, rfl⟩)
    · exact inFront.in_front _
    · exact behind.behind

/-- A run on one side is maximal for the whole text if it is for its side. -/
theorem isMaximalRun_append_iff (separates : isSeparator separator = true) (span : Span) :
    IsMaximalRun (before ++ separator :: after) span ↔
      IsMaximalRun before span ∨
        ∃ other, IsMaximalRun after other ∧ other.shift (before.length + 1) = span := by
  constructor
  · rintro ⟨isRun, maximal⟩
    rcases (isRun_append_iff separates span).mp isRun with inFront | ⟨other, behind, rfl⟩
    · exact .inl ⟨inFront, fun longer run => maximal longer (run.in_front _)⟩
    · refine .inr ⟨other, ⟨behind, fun longer run earlier later => ?_⟩, rfl⟩
      exact Span.shift_injective
        (maximal _ run.behind (Nat.add_le_add_right earlier _) (Nat.add_le_add_right later _))
  · rintro (⟨inFront, maximal⟩ | ⟨other, ⟨behind, maximal⟩, rfl⟩)
    · refine ⟨inFront.in_front _, fun longer run earlier later => ?_⟩
      rcases (isRun_append_iff separates longer).mp run with longerInFront | ⟨far, _, rfl⟩
      · exact maximal longer longerInFront earlier later
      · -- a run behind the separator cannot begin that early
        have nonempty := inFront.nonempty
        have ends := inFront.stop_le
        simp only [Span.shift] at earlier
        omega
    · refine ⟨behind.behind, fun longer run earlier later => ?_⟩
      rcases (isRun_append_iff separates longer).mp run with longerInFront | ⟨far, farBehind, rfl⟩
      · -- a run in front of the separator cannot end that late
        have ends := longerInFront.stop_le
        simp only [Span.shift] at later
        omega
      · have same := maximal far farBehind (Nat.le_of_add_le_add_right earlier)
          (Nat.le_of_add_le_add_right later)
        rw [same]

end

theorem isMaximalRun_word_iff {word : List Char} (isWord : IsWord word) (span : Span) :
    IsMaximalRun word span ↔ span = ⟨0, word.length⟩ := by
  have whole : IsRun word ⟨0, word.length⟩ := by
    refine ⟨List.length_pos_iff.mpr isWord.1, fun position _ below => ?_⟩
    exact ⟨word[position], List.getElem?_eq_getElem below, isWord.2 _ (List.getElem_mem below)⟩
  constructor
  · rintro ⟨isRun, maximal⟩
    exact (maximal ⟨0, word.length⟩ whole (Nat.zero_le _) isRun.stop_le).symm
  · rintro rfl
    refine ⟨whole, fun other run earlier later => ?_⟩
    have ends := run.stop_le
    obtain ⟨start, stop⟩ := other
    simp only at earlier later ends
    simp only [Span.mk.injEq]
    omega

/-! ### Runs from left to right -/

/-- The maximal runs of a text, each of them once and from left to right. -/
structure RunsInOrder (text : List Char) (spans : List Span) : Prop where
  ordered : spans.Pairwise fun one other => one.stop < other.start
  complete : ∀ span, span ∈ spans ↔ IsMaximalRun text span

theorem runsInOrder_nil : RunsInOrder [] [] := by
  refine ⟨.nil, fun span => ⟨fun member => (List.not_mem_nil member).elim, fun maximal => ?_⟩⟩
  have nonempty := maximal.isRun.nonempty
  have ends := maximal.isRun.stop_le
  rw [List.length_nil] at ends
  omega

theorem runsInOrder_word {word : List Char} (isWord : IsWord word) :
    RunsInOrder word [⟨0, word.length⟩] := by
  refine ⟨List.pairwise_singleton _ _, fun span => ?_⟩
  rw [List.mem_singleton, isMaximalRun_word_iff isWord]

theorem RunsInOrder.append {before after : List Char} {separator : Char} {spans others : List Span}
    (inFront : RunsInOrder before spans) (separates : isSeparator separator = true)
    (behind : RunsInOrder after others) :
    RunsInOrder (before ++ separator :: after)
      (spans ++ others.map (Span.shift (before.length + 1))) := by
  constructor
  · rw [List.pairwise_append, List.pairwise_map]
    refine ⟨inFront.ordered, behind.ordered.imp fun apart => Nat.add_lt_add_right apart _, ?_⟩
    intro one member shifted shiftedMember
    obtain ⟨other, _, rfl⟩ := List.mem_map.mp shiftedMember
    have ends := ((inFront.complete one).mp member).isRun.stop_le
    simp only [Span.shift]
    omega
  · intro span
    rw [isMaximalRun_append_iff separates, List.mem_append, List.mem_map, inFront.complete]
    simp only [behind.complete]

private theorem chars_whole (word more : List Char) :
    Span.chars (word ++ more) ⟨0, word.length⟩ = word := by
  rw [Span.chars, List.drop_zero, Nat.sub_zero, List.take_left]

private theorem map_chars_shift (before after : List Char) (separator : Char)
    (spans : List Span) :
    (spans.map (Span.shift (before.length + 1))).map
        (Span.chars (before ++ separator :: after)) = spans.map (Span.chars after) := by
  rw [List.map_map]
  apply List.map_congr_left
  intro span _
  have places : span.start + (before.length + 1) = before.length + (span.start + 1) := by omega
  rw [Function.comp_apply, Span.shift, Span.chars, Span.chars, Nat.add_sub_add_right, places,
    List.drop_length_add_append, List.drop_succ_cons]

theorem Spaced.runsInOrder {text : List Char} {words : List (List Char)}
    (spaced : Spaced text words) :
    ∃ spans, RunsInOrder text spans ∧ words = spans.map (Span.chars text) := by
  induction spaced with
  | nothing => exact ⟨[], runsInOrder_nil, rfl⟩
  | @separator c text words separates _ ih =>
      obtain ⟨spans, inOrder, rfl⟩ := ih
      exact ⟨_, runsInOrder_nil.append separates inOrder,
        (map_chars_shift [] text c spans).symm⟩
  | @last word isWord =>
      have whole := chars_whole word []
      rw [List.append_nil] at whole
      refine ⟨_, runsInOrder_word isWord, ?_⟩
      rw [List.map_singleton, whole]
  | @word word c text words isWord separates _ ih =>
      obtain ⟨spans, inOrder, rfl⟩ := ih
      refine ⟨_, (runsInOrder_word isWord).append separates inOrder, ?_⟩
      rw [List.singleton_append, List.map_cons, chars_whole, map_chars_shift]

theorem Spaced.flatten_eq {text : List Char} {words : List (List Char)}
    (spaced : Spaced text words) :
    words.flatten = text.filter fun c => !isSeparator c := by
  have kept : ∀ {word : List Char}, IsWord word →
      (word.filter fun c => !isSeparator c) = word := by
    intro word isWord
    rw [List.filter_eq_self]
    intro c member
    rw [isWord.2 c member]
    rfl
  induction spaced with
  | nothing => rfl
  | separator separates _ ih =>
      rw [List.filter_cons_of_neg (by simp [separates])]
      exact ih
  | last isWord => rw [List.flatten_singleton, kept isWord]
  | word isWord separates _ ih =>
      rw [List.flatten_cons, ih, List.filter_append, kept isWord,
        List.filter_cons_of_neg (by simp [separates])]

def IsGap (gap : List Char) : Prop :=
  gap ≠ [] ∧ ∀ c ∈ gap, isSeparator c = true

instance (gap : List Char) : Decidable (IsGap gap) :=
  decidable_of_iff (gap ≠ [] ∧ gap.all isSeparator = true) (by simp [IsGap])

theorem tokens_append_gap (before after : String) {gap : String} (isGap : IsGap gap.toList) :
    tokens (before ++ gap ++ after) = tokens before ++ tokens after := by
  obtain ⟨nonempty, separate⟩ := isGap
  obtain ⟨c, rest, gapChars⟩ := List.exists_cons_of_ne_nil nonempty
  rw [gapChars] at separate
  have skipped := scan_of_separators rest after.toList fun other member =>
    separate other (List.mem_cons_of_mem c member)
  have cut := scan_append_separator [] before.toList (rest ++ after.toList)
    (separate c List.mem_cons_self)
  simp only [tokens, String.toList_append, gapChars]
  rw [List.append_assoc, List.cons_append, cut, skipped, List.map_append]

theorem tokens_of_isWord {word : String} (isWord : IsWord word.toList) : tokens word = [word] :=
  (tokens_eq_iff word [word]).mpr (.last isWord)

/-- Words with gaps between them: the first word, and then the others, each with
the gap in front of it. -/
def joined (first : String) : List (String × String) → String
  | [] => first
  | (gap, word) :: rest => first ++ gap ++ joined word rest

theorem tokens_joined (first : String) (rest : List (String × String))
    (areWords : ∀ word ∈ first :: rest.map Prod.snd, IsWord word.toList)
    (areGaps : ∀ gap ∈ rest.map Prod.fst, IsGap gap.toList) :
    tokens (joined first rest) = first :: rest.map Prod.snd := by
  induction rest generalizing first with
  | nil => exact tokens_of_isWord (areWords first List.mem_cons_self)
  | cons next rest ih =>
      obtain ⟨gap, word⟩ := next
      rw [List.map_cons, List.forall_mem_cons] at areWords areGaps
      rw [joined, tokens_append_gap _ _ areGaps.1, tokens_of_isWord areWords.1,
        ih word areWords.2 areGaps.2]
      rfl

theorem join_tokens (text : String) :
    String.join (tokens text) = String.ofList (text.toList.filter fun c => !isSeparator c) := by
  apply String.toList_inj.mp
  rw [String.toList_join, String.toList_ofList, List.flatMap_def]
  exact (setsOut_tokens text).flatten_eq

theorem exists_token_of_mem {text : String} {c : Char} (member : c ∈ text.toList)
    (inside : isSeparator c = false) : ∃ token ∈ tokens text, c ∈ token.toList := by
  have kept : c ∈ text.toList.filter fun c => !isSeparator c :=
    List.mem_filter.mpr ⟨member, by rw [inside]; rfl⟩
  rw [← (setsOut_tokens text).flatten_eq, List.mem_flatten] at kept
  obtain ⟨chars, isToken, inToken⟩ := kept
  obtain ⟨token, tokenMember, rfl⟩ := List.mem_map.mp isToken
  exact ⟨token, tokenMember, inToken⟩

theorem exists_runsInOrder (text : String) :
    ∃ spans, RunsInOrder text.toList spans ∧
      tokens text = spans.map fun span => String.ofList (span.chars text.toList) := by
  obtain ⟨spans, inOrder, chars⟩ := (setsOut_tokens text).runsInOrder
  refine ⟨spans, inOrder, ?_⟩
  rw [← map_ofList_toList (tokens text), chars, List.map_map]
  rfl

/-- The tokens of a text are its maximal runs without one of the six separators,
from left to right. Together they are the text without its separators, and every
other character, blank or not, is in one of them. Wherever there are separators
a text can be cut in two, and words with gaps between them are read back. -/
theorem tokens_are_maximal_runs (text : String) :
    (∀ c, isSeparator c = true ↔ c ∈ [' ', '\t', '\n', '\r', '\x0c', '\x0b']) ∧
      (∃ spans, RunsInOrder text.toList spans ∧
        tokens text = spans.map fun span => String.ofList (span.chars text.toList)) ∧
      (∀ token ∈ tokens text, IsWord token.toList) ∧
      String.join (tokens text) =
        String.ofList (text.toList.filter fun c => !isSeparator c) ∧
      (∀ c ∈ text.toList, isSeparator c = false → ∃ token ∈ tokens text, c ∈ token.toList) ∧
      (∀ gap after : String, IsGap gap.toList →
        tokens (text ++ gap ++ after) = tokens text ++ tokens after) ∧
      tokens "" = [] ∧
      ∀ (first : String) (rest : List (String × String)),
        (∀ word ∈ first :: rest.map Prod.snd, IsWord word.toList) →
          (∀ gap ∈ rest.map Prod.fst, IsGap gap.toList) →
            tokens (joined first rest) = first :: rest.map Prod.snd := by
  exact ⟨isSeparator_iff, exists_runsInOrder text, fun token => isWord_of_mem_tokens,
    join_tokens text, fun c => exists_token_of_mem,
    fun gap after => tokens_append_gap text after, rfl, tokens_joined⟩

/-- Foreign blanks and control characters that do not separate are words. -/
theorem tokens_are_maximal_runs_of_foreign_blanks :
    let words := ["\u00a0", "1\u2028", "\x1c\u0085"]
    let line := joined "\u00a0" [("\x0b ", "1\u2028"), ("\r\n", "\x1c\u0085")]
    (∀ word ∈ words, IsWord word.toList) ∧
      (∀ gap ∈ ["\x0b ", "\r\n", "\x0c"], IsGap gap.toList) ∧
      tokens line = words ∧
      tokens (line ++ "\x0c" ++ line) = words ++ words ∧
      '\u2028' ∈ line.toList ∧ isSeparator '\u2028' = false ∧
      ∃ token ∈ tokens line, '\u2028' ∈ token.toList := by
  intro words line
  obtain ⟨_, _, _, _, stays, cuts, _, reads⟩ := tokens_are_maximal_runs line
  have areWords : ∀ word ∈ words, IsWord word.toList := by decide +kernel
  have areGaps : ∀ gap ∈ ["\x0b ", "\r\n", "\x0c"], IsGap gap.toList := by decide +kernel
  have inLine : '\u2028' ∈ line.toList := by decide +kernel
  have lineTokens : tokens line = words := reads _ _ areWords (by decide +kernel)
  have twice := cuts "\x0c" line (areGaps "\x0c" (by decide))
  rw [lineTokens] at twice
  exact ⟨areWords, areGaps, lineTokens, twice, inLine, by decide, stays _ inLine (by decide)⟩

end WordCalc.Text
