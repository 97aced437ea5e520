import Mathlib.Data.Set.Subsingleton
import Mathlib.Tactic.SplitIfs
import WordCalc.Literal
import WordCalc.Proofs.Pattern

/-!
The grammar of literals as a pattern.

Each form of literals is an alternative of the pattern that the printed grammar
spells, with a group around it that names the form and a group inside of it for
the magnitude. Matching is reading: the pattern matches exactly the texts of
literals, by one alternative each, which cuts the text in one way. So there is
only one search for matches, as far as it can be told from outside.
-/

namespace WordCalc

namespace Form

def groupName : Form → String
  | .binary => "bin"
  | .negatedBinary => "negbin"
  | .hexadecimal => "hex"
  | .negatedHexadecimal => "neghex"
  | .decimal => "dec"

def digitRanges : Form → List (Char × Char)
  | .binary | .negatedBinary => [('0', '0'), ('1', '1')]
  | .hexadecimal | .negatedHexadecimal => [('0', '9'), ('a', 'f'), ('A', 'F')]
  | .decimal => [('0', '9')]

def leadPattern (form : Form) : Pattern := .word form.lead

def signPattern (form : Form) : Pattern :=
  .optional (if form.allowsMinus then .oneOf [('+', '+'), ('-', '-')] else .word ['+'])

def digitsPattern (form : Form) : Pattern := .repeated (.oneOf form.digitRanges)

def pattern (form : Form) : Pattern :=
  .group form.groupName
    (.sequence form.leadPattern
      (.group "magnitude" (.sequence form.signPattern form.digitsPattern)))

end Form

def Literal.pattern : Pattern :=
  .choice Form.binary.pattern
    (.choice Form.negatedBinary.pattern
      (.choice Form.hexadecimal.pattern
        (.choice Form.negatedHexadecimal.pattern Form.decimal.pattern)))

theorem Literal.spell_pattern : Literal.pattern.spell = Pattern.bare Literal.grammar := by
  unfold Literal.grammar
  repeat rw [Pattern.bare_cons]
  decide +kernel

theorem Literal.matches_pattern_iff (text : List Char) (captures : Captures) :
    Literal.pattern.Matches text captures ↔ ∃ form : Form, form.pattern.Matches text captures := by
  simp only [Literal.pattern, Pattern.matches_choice_iff]
  constructor
  · intro either
    rcases either with found | found | found | found | found
    · exact ⟨.binary, found⟩
    · exact ⟨.negatedBinary, found⟩
    · exact ⟨.hexadecimal, found⟩
    · exact ⟨.negatedHexadecimal, found⟩
    · exact ⟨.decimal, found⟩
  · intro matched
    obtain ⟨form, found⟩ := matched
    cases form with
    | binary => exact Or.inl found
    | negatedBinary => exact Or.inr (Or.inl found)
    | hexadecimal => exact Or.inr (Or.inr (Or.inl found))
    | negatedHexadecimal => exact Or.inr (Or.inr (Or.inr (Or.inl found)))
    | decimal => exact Or.inr (Or.inr (Or.inr (Or.inr found)))

theorem Numeral.isDigit_iff_toNat (base : Nat) (c : Char) :
    isDigit base c = true ↔
      48 ≤ c.toNat ∧ c.toNat ≤ 57 ∧ c.toNat - 48 < base ∨
        97 ≤ c.toNat ∧ c.toNat ≤ 102 ∧ c.toNat - 87 < base ∨
        65 ≤ c.toNat ∧ c.toNat ≤ 70 ∧ c.toNat - 55 < base := by
  have decimal : c.isDigit = true ↔ 48 ≤ c.toNat ∧ c.toNat ≤ 57 := Char.isDigit_iff_toNat
  have lower : 'a' ≤ c ∧ c ≤ 'f' ↔ 97 ≤ c.toNat ∧ c.toNat ≤ 102 := Iff.rfl
  have upper : 'A' ≤ c ∧ c ≤ 'F' ↔ 65 ≤ c.toNat ∧ c.toNat ≤ 70 := Iff.rfl
  unfold isDigit digitValue?
  simp only [decimal, lower, upper]
  split_ifs
  · simp only [Option.any_some, decide_eq_true_eq]
    omega
  · simp only [Option.any_some, decide_eq_true_eq]
    omega
  · simp only [Option.any_some, decide_eq_true_eq]
    omega
  · simp only [Option.any_none, Bool.false_eq_true, false_iff]
    omega

private theorem inRanges_digitRanges_iff (form : Form) (c : Char) :
    Pattern.InRanges form.digitRanges c ↔ Numeral.isDigit form.base c = true := by
  rw [Numeral.isDigit_iff_toNat]
  cases form <;>
    simp only [Form.digitRanges, Form.base, Pattern.inRanges_cons_iff, Pattern.not_inRanges_nil,
      or_false, Char.le_def, UInt32.le_iff_toNat_le, Char.toNat_val, Char.reduceToNat] <;>
    omega

theorem Form.matches_digitsPattern_iff (form : Form) (text : List Char) (captures : Captures) :
    form.digitsPattern.Matches text captures ↔
      text ≠ [] ∧ (∀ c ∈ text, Numeral.isDigit form.base c = true) ∧ captures = [] := by
  rw [Form.digitsPattern, Pattern.matches_repeated_iff fun _ _ => Pattern.matches_oneOf_iff _]
  simp only [inRanges_digitRanges_iff]

theorem Form.matches_signPattern_iff (form : Form) (text : List Char) (captures : Captures) :
    form.signPattern.Matches text captures ↔
      (∃ sign : Sign, sign.text = text ∧ (sign = .minus → form.allowsMinus = true)) ∧
        captures = [] := by
  unfold Form.signPattern
  rw [Pattern.matches_optional_iff]
  constructor
  · intro either
    rcases either with ⟨rfl, rfl⟩ | written
    · exact ⟨⟨.absent, rfl, fun minus => nomatch minus⟩, rfl⟩
    · split at written
      · rename_i allowed
        obtain ⟨c, rfl, ⟨range, member, above, below⟩, rfl⟩ :=
          (Pattern.matches_oneOf_iff _).mp written
        refine ⟨?_, rfl⟩
        simp only [List.mem_cons, List.not_mem_nil, or_false] at member
        rcases member with rfl | rfl
        · exact ⟨.plus, congrArg (fun c => [c]) (Char.le_antisymm above below), fun _ => allowed⟩
        · exact ⟨.minus, congrArg (fun c => [c]) (Char.le_antisymm above below), fun _ => allowed⟩
      · obtain ⟨rfl, rfl⟩ := (Pattern.matches_word_iff _).mp written
        exact ⟨⟨.plus, rfl, fun minus => nomatch minus⟩, rfl⟩
  · intro parts
    obtain ⟨⟨sign, rfl, allowed⟩, rfl⟩ := parts
    cases sign with
    | absent => exact Or.inl ⟨rfl, rfl⟩
    | plus =>
        right
        split
        · exact .oneOf ⟨('+', '+'), by simp, Char.le_refl _, Char.le_refl _⟩
        · exact .word ['+']
    | minus =>
        right
        rw [if_pos (allowed rfl)]
        exact .oneOf ⟨('-', '-'), by simp, Char.le_refl _, Char.le_refl _⟩

/-! ### Cutting a text -/

/-- A text cut into parts for one of the alternatives. -/
structure Cut where
  form : Form
  lead : List Char
  sign : List Char
  digits : List Char

namespace Cut

def magnitude (cut : Cut) : List Char := cut.sign ++ cut.digits

def text (cut : Cut) : List Char := cut.lead ++ cut.magnitude

def captures (cut : Cut) : Captures :=
  [("magnitude", cut.magnitude), (cut.form.groupName, cut.text)]

structure Fits (cut : Cut) : Prop where
  lead : cut.form.leadPattern.Matches cut.lead []
  sign : cut.form.signPattern.Matches cut.sign []
  digits : cut.form.digitsPattern.Matches cut.digits []

end Cut

def Literal.cut (literal : Literal) : Cut :=
  { form := literal.form
    lead := literal.form.lead
    sign := literal.sign.text
    digits := literal.digits }

theorem Form.matches_pattern_iff (form : Form) (text : List Char) (captures : Captures) :
    form.pattern.Matches text captures ↔
      ∃ cut : Cut, cut.form = form ∧ cut.Fits ∧ cut.text = text ∧ cut.captures = captures := by
  unfold Form.pattern
  simp only [Pattern.matches_group_iff, Pattern.matches_sequence_iff]
  constructor
  · intro found
    obtain ⟨_, rfl, lead, _, inLead, _, rfl, rfl, leads,
      _, rfl, sign, digits, inSign, inDigits, rfl, rfl, signs, ends⟩ := found
    obtain ⟨_, rfl⟩ := (Pattern.matches_word_iff _).mp leads
    obtain ⟨_, rfl⟩ := (form.matches_signPattern_iff _ _).mp signs
    obtain ⟨_, _, rfl⟩ := (form.matches_digitsPattern_iff _ _).mp ends
    exact ⟨⟨form, lead, sign, digits⟩, rfl, ⟨leads, signs, ends⟩, rfl, rfl⟩
  · intro parts
    obtain ⟨cut, rfl, fits, rfl, rfl⟩ := parts
    exact ⟨_, rfl, cut.lead, cut.magnitude, [], [("magnitude", cut.magnitude)], rfl, rfl,
      fits.lead, [], rfl, cut.sign, cut.digits, [], [], rfl, rfl, fits.sign, fits.digits⟩

theorem Cut.fits_iff (cut : Cut) :
    cut.Fits ↔ ∃ literal : Literal, literal.WellFormed ∧ literal.cut = cut := by
  constructor
  · intro fits
    obtain ⟨form, lead, sign, digits⟩ := cut
    have leads : form.leadPattern.Matches lead [] := fits.lead
    obtain ⟨rfl, _⟩ := (Pattern.matches_word_iff _).mp leads
    obtain ⟨⟨written, rfl, allowed⟩, _⟩ := (form.matches_signPattern_iff sign []).mp fits.sign
    obtain ⟨nonempty, allDigits, _⟩ := (form.matches_digitsPattern_iff digits []).mp fits.digits
    exact ⟨⟨form, written, digits⟩, ⟨nonempty, allDigits, allowed⟩, rfl⟩
  · intro written
    obtain ⟨literal, ⟨nonempty, allDigits, allowed⟩, rfl⟩ := written
    exact
      { lead := .word literal.form.lead
        sign := (literal.form.matches_signPattern_iff _ _).mpr
          ⟨⟨literal.sign, rfl, allowed⟩, rfl⟩
        digits := (literal.form.matches_digitsPattern_iff _ _).mpr
          ⟨nonempty, allDigits, rfl⟩ }

/-- A text is cut as the literal that is read from it, so in one way at most. -/
theorem Cut.fits_text_iff (cut : Cut) (text : List Char) :
    cut.Fits ∧ cut.text = text ↔
      ∃ literal, Literal.ofChars? text = some literal ∧ literal.cut = cut := by
  rw [Cut.fits_iff]
  constructor
  · intro parts
    obtain ⟨⟨literal, wellFormed, rfl⟩, written⟩ := parts
    exact ⟨literal, (Literal.ofChars?_eq_some_iff text literal).mpr ⟨wellFormed, written⟩, rfl⟩
  · intro parts
    obtain ⟨literal, read, rfl⟩ := parts
    obtain ⟨wellFormed, written⟩ := (Literal.ofChars?_eq_some_iff text literal).mp read
    exact ⟨⟨literal, wellFormed, rfl⟩, written⟩

theorem Cut.subsingleton (text : List Char) :
    { cut : Cut | cut.Fits ∧ cut.text = text }.Subsingleton := by
  intro one fitsOne other fitsOther
  obtain ⟨literal, read, rfl⟩ := (one.fits_text_iff text).mp fitsOne
  obtain ⟨again, readAgain, rfl⟩ := (other.fits_text_iff text).mp fitsOther
  rw [read, Option.some_inj] at readAgain
  rw [readAgain]

/-- The whole pattern matches the texts of literals, and captures what their cuts
say. -/
theorem Literal.matches_pattern_iff_ofChars? (text : List Char) (captures : Captures) :
    Literal.pattern.Matches text captures ↔
      ∃ literal, Literal.ofChars? text = some literal ∧ literal.cut.captures = captures := by
  rw [Literal.matches_pattern_iff]
  constructor
  · intro matched
    obtain ⟨form, found⟩ := matched
    obtain ⟨cut, _, fits, written, rfl⟩ := (form.matches_pattern_iff text captures).mp found
    obtain ⟨literal, read, rfl⟩ := (cut.fits_text_iff text).mp ⟨fits, written⟩
    exact ⟨literal, read, rfl⟩
  · intro parts
    obtain ⟨literal, read, rfl⟩ := parts
    obtain ⟨fits, written⟩ := (literal.cut.fits_text_iff text).mpr ⟨literal, read, rfl⟩
    exact ⟨literal.form, (literal.form.matches_pattern_iff text _).mpr
      ⟨literal.cut, rfl, fits, written, rfl⟩⟩

theorem Form.subsingleton_matches (text : List Char) :
    { found : Form × Captures | found.1.pattern.Matches text found.2 }.Subsingleton := by
  intro one matchesOne other matchesOther
  obtain ⟨cut, sameForm, fits, written, captures⟩ :=
    (one.1.matches_pattern_iff text one.2).mp matchesOne
  obtain ⟨again, sameFormAgain, fitsAgain, writtenAgain, capturesAgain⟩ :=
    (other.1.matches_pattern_iff text other.2).mp matchesOther
  obtain rfl : cut = again := Cut.subsingleton text ⟨fits, written⟩ ⟨fitsAgain, writtenAgain⟩
  exact Prod.ext (sameForm.symm.trans sameFormAgain) (captures.symm.trans capturesAgain)

namespace Literal

/-- One search that there is: reading, told by names. -/
def search (text : List Char) : Option Groups :=
  (ofChars? text).map fun literal => literal.cut.captures.groups

theorem searches_search : Literal.pattern.Searches search := by
  constructor
  · intro text captures matched
    obtain ⟨literal, read, _⟩ := (matches_pattern_iff_ofChars? text captures).mp matched
    rw [search, read]
    exact Option.some_ne_none _
  · intro text groups found
    obtain ⟨literal, read, rfl⟩ := Option.map_eq_some_iff.mp found
    exact ⟨literal.cut.captures,
      (matches_pattern_iff_ofChars? text _).mpr ⟨literal, read, rfl⟩, rfl⟩

/-- Any search finds what is read, and tells the same of the names. -/
theorem eq_search {found : List Char → Option Groups} (searches : Literal.pattern.Searches found) :
    found = search := by
  funext text
  cases told : found text with
  | none =>
      cases read : ofChars? text with
      | none => rw [search, read, Option.map_none]
      | some literal =>
          have matched := (matches_pattern_iff_ofChars? text _).mpr ⟨literal, read, rfl⟩
          exact absurd told (searches.finds text _ matched)
  | some groups =>
      obtain ⟨captures, matched, rfl⟩ := searches.sound text groups told
      obtain ⟨literal, read, rfl⟩ := (matches_pattern_iff_ofChars? text captures).mp matched
      rw [search, read, Option.map_some]

theorem search_eq_none_iff (text : List Char) :
    search text = none ↔ ∀ (form : Form) captures, ¬ form.pattern.Matches text captures := by
  constructor
  · intro refused form captures matched
    exact searches_search.finds text captures
      ((matches_pattern_iff text captures).mpr ⟨form, matched⟩) refused
  · intro unmatched
    cases found : search text with
    | none => rfl
    | some groups =>
        obtain ⟨captures, whole, _⟩ := searches_search.sound text groups found
        obtain ⟨form, matched⟩ := (matches_pattern_iff text captures).mp whole
        exact absurd matched (unmatched form captures)

end Literal

end WordCalc
