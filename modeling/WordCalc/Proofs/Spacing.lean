import Mathlib.Data.List.Forall2
import WordCalc.Text

/-!
Words, and the texts that set them out.

A word has no separator in it. A text sets out words if it consists of them, in
their order, and of separators, of which there is one at least between any two
words. Every text sets out its tokens and nothing else. Line ends are
separators, so that it makes no difference whether a text is cut into lines
before it is cut into tokens.
-/

namespace WordCalc.Text

theorem isSeparator_iff (c : Char) :
    isSeparator c = true ↔ c ∈ [' ', '\t', '\n', '\r', '\x0c', '\x0b'] := by
  simp only [isSeparator, Bool.or_eq_true, beq_iff_eq, List.mem_cons, List.not_mem_nil, or_false]
  tauto

def IsWord (word : List Char) : Prop :=
  word ≠ [] ∧ ∀ c ∈ word, isSeparator c = false

instance (word : List Char) : Decidable (IsWord word) :=
  decidable_of_iff (word ≠ [] ∧ (word.all fun c => !isSeparator c) = true) (by simp [IsWord])

inductive Spaced : List Char → List (List Char) → Prop
  | nothing : Spaced [] []
  | separator {c : Char} {text : List Char} {words : List (List Char)} :
      isSeparator c = true → Spaced text words → Spaced (c :: text) words
  | last {word : List Char} : IsWord word → Spaced word [word]
  | word {word : List Char} {c : Char} {text : List Char} {words : List (List Char)} :
      IsWord word → isSeparator c = true → Spaced text words →
        Spaced (word ++ c :: text) (word :: words)

def SetsOut (text : String) (words : List String) : Prop :=
  Spaced text.toList (words.map String.toList)

def LinesSetOut (lines words : List String) : Prop :=
  ∃ parts : List (List String), List.Forall₂ SetsOut lines parts ∧ parts.flatten = words

private theorem close_of_ne_nil {run : List Char} (nonempty : run ≠ []) :
    close run = [run.reverse] := by
  cases run with
  | nil => exact absurd rfl nonempty
  | cons c rest => rfl

private theorem scan_of_no_separator (run : List Char) {word : List Char}
    (noSeparator : ∀ c ∈ word, isSeparator c = false) :
    scan run word = close (word.reverse ++ run) := by
  induction word generalizing run with
  | nil => rfl
  | cons c rest ih =>
      have inWord : isSeparator c = false := noSeparator c List.mem_cons_self
      rw [scan, inWord, if_neg Bool.false_ne_true,
        ih (c :: run) fun other member => noSeparator other (List.mem_cons_of_mem c member),
        List.reverse_cons, List.append_assoc, List.singleton_append]

theorem scan_of_isWord {word : List Char} (isWord : IsWord word) :
    scan [] word = [word] := by
  rw [scan_of_no_separator [] isWord.2, List.append_nil,
    close_of_ne_nil (List.reverse_ne_nil_iff.mpr isWord.1), List.reverse_reverse]

theorem scan_of_separators (gap text : List Char)
    (separate : ∀ c ∈ gap, isSeparator c = true) : scan [] (gap ++ text) = scan [] text := by
  induction gap with
  | nil => rfl
  | cons c rest ih =>
      rw [List.cons_append, scan, if_pos (separate c List.mem_cons_self),
        ih fun other member => separate other (List.mem_cons_of_mem c member)]
      rfl

theorem scan_of_spaced {text : List Char} {words : List (List Char)} (spaced : Spaced text words) :
    scan [] text = words := by
  induction spaced with
  | nothing => rfl
  | separator separates _ ih => rw [scan, if_pos separates, ih]; rfl
  | last isWord => exact scan_of_isWord isWord
  | word isWord separates _ ih =>
      rw [scan_append_separator [] _ _ separates, scan_of_isWord isWord, ih, List.singleton_append]

/-- The unfinished run in front of a text belongs to its first token. -/
private theorem spaced_scan_run (run text : List Char)
    (noSeparator : ∀ c ∈ run.reverse, isSeparator c = false) :
    Spaced (run.reverse ++ text) (scan run text) := by
  induction text generalizing run with
  | nil =>
      rw [List.append_nil, scan]
      by_cases empty : run = []
      · subst empty
        exact .nothing
      · rw [close_of_ne_nil empty]
        exact .last ⟨List.reverse_ne_nil_iff.mpr empty, noSeparator⟩
  | cons c rest ih =>
      rw [scan]
      cases separates : isSeparator c with
      | true =>
          have further : Spaced rest (scan [] rest) := ih [] fun _ member => by cases member
          rw [if_pos rfl]
          by_cases empty : run = []
          · subst empty
            exact .separator separates further
          · rw [close_of_ne_nil empty]
            exact .word ⟨List.reverse_ne_nil_iff.mpr empty, noSeparator⟩ separates further
      | false =>
          have longer : ∀ other ∈ (c :: run).reverse, isSeparator other = false := by
            rw [List.reverse_cons, List.forall_mem_append]
            exact ⟨noSeparator, List.forall_mem_singleton.mpr separates⟩
          have further := ih (c :: run) longer
          rw [List.reverse_cons, List.append_assoc] at further
          rw [if_neg Bool.false_ne_true]
          exact further

theorem spaced_scan (text : List Char) : Spaced text (scan [] text) :=
  spaced_scan_run [] text fun _ member => by cases member

private theorem map_toList_ofList (words : List (List Char)) :
    (words.map String.ofList).map String.toList = words := by
  have same : String.toList ∘ String.ofList = id := funext fun _ => String.toList_ofList
  rw [List.map_map, same, List.map_id]

theorem map_ofList_toList (words : List String) :
    (words.map String.toList).map String.ofList = words := by
  have same : String.ofList ∘ String.toList = id := funext fun _ => String.ofList_toList
  rw [List.map_map, same, List.map_id]

theorem tokens_eq_iff (text : String) (words : List String) :
    tokens text = words ↔ SetsOut text words := by
  constructor
  · rintro rfl
    rw [SetsOut, tokens, map_toList_ofList]
    exact spaced_scan text.toList
  · intro setOut
    rw [tokens, scan_of_spaced setOut, map_ofList_toList]

theorem setsOut_tokens (text : String) : SetsOut text (tokens text) :=
  (tokens_eq_iff text (tokens text)).mp rfl

theorem Spaced.isWord {text : List Char} {words : List (List Char)}
    (spaced : Spaced text words) : ∀ word ∈ words, IsWord word := by
  induction spaced with
  | nothing =>
      intro word member
      cases member
  | separator _ _ ih => exact ih
  | last isWord => exact List.forall_mem_singleton.mpr isWord
  | word isWord _ _ ih => exact List.forall_mem_cons.mpr ⟨isWord, ih⟩

theorem isWord_of_mem_tokens {line token : String} (member : token ∈ tokens line) :
    IsWord token.toList :=
  (setsOut_tokens line).isWord _ (List.mem_map_of_mem member)

private theorem flatMap_scan_scanLines (line rest : List Char) :
    (scanLines line rest).flatMap (scan []) = scan [] (line.reverse ++ rest) := by
  fun_induction scanLines line rest with
  | case1 line empty =>
      rw [List.isEmpty_iff.mp empty]
      rfl
  | case2 line nonempty =>
      rw [List.flatMap_singleton, List.append_nil]
  | case3 line rest ih =>
      -- The empty line between the two characters has no tokens.
      have feed : scan [] ('\n' :: rest) = scan [] rest := rfl
      rw [List.flatMap_cons, ih, List.reverse_nil, List.nil_append,
        scan_append_separator [] _ _ (by rfl), feed]
  | case4 line c rest notPair ends ih =>
      have separates : isSeparator c = true := by
        rw [Bool.or_eq_true, beq_iff_eq, beq_iff_eq] at ends
        rcases ends with rfl | rfl <;> rfl
      rw [List.flatMap_cons, ih, List.reverse_nil, List.nil_append,
        scan_append_separator [] _ _ separates]
  | case5 line c rest notPair inside ih =>
      rw [ih, List.reverse_cons, List.append_assoc, List.singleton_append]

theorem flatMap_tokens_lines (text : String) : (lines text).flatMap tokens = tokens text := by
  have cut := flatMap_scan_scanLines [] text.toList
  have line : (fun chars => tokens (String.ofList chars)) =
      fun chars => (scan [] chars).map String.ofList := by
    funext chars
    rw [tokens, String.toList_ofList]
  rw [lines, List.flatMap_map, line, ← List.map_flatMap, cut]
  rfl

theorem flatMap_tokens_eq_iff (lines words : List String) :
    lines.flatMap tokens = words ↔ LinesSetOut lines words := by
  constructor
  · rintro rfl
    refine ⟨lines.map tokens, ?_, rfl⟩
    rw [List.forall₂_map_right_iff, List.forall₂_same]
    exact fun line _ => setsOut_tokens line
  · rintro ⟨parts, each, rfl⟩
    induction each with
    | nil => rfl
    | cons first _ ih =>
        rw [List.flatMap_cons, List.flatten_cons, (tokens_eq_iff _ _).mpr first, ih]

end WordCalc.Text
