import VoiceEdit.Text.Casing

/-!
# Capitalised words

A word of small letters is capitalised in one of three ways, and what comes out tells the way and
the word: lowercasing it gives the word back, and the guess at how it is capitalised is right. The
word must begin with a letter, which says whether it is capitalised at all, and have another one,
which tells a capitalised word from one in capitals.

Results:

* `plain_of_mem`: what is asked of the characters of words.
* `apply_eq_written`: the three ways a word is written.
* `lowercase_apply`: a capitalised word in lowercase is the word.
* `guess_apply`: how a word is capitalised is guessed from it.
-/
namespace VoiceEdit.Capitalization

open Unicode

/-- The letters that words are written with. -/
def letters : List Char := "abcdefghijklmnopqrstuvwxyz".toList

/-- What stands in a word: letters and the apostrophe. -/
def wordChars : List Char := '\x27' :: letters

/-- A word of letters and apostrophes that begins with a letter and has at least two of them. -/
structure IsWord (w : Text) : Prop where
  mem_wordChars : ∀ c ∈ w, c ∈ wordChars
  head_mem : ∃ c ∈ w.head?, c ∈ letters
  two_le_count : 2 ≤ w.countP (· ∈ letters)

instance (w : Text) : Decidable (IsWord w) :=
  decidable_of_iff (w.all (· ∈ wordChars) = true ∧ w.head?.any (· ∈ letters) = true ∧
      2 ≤ w.countP (· ∈ letters)) <| by
    constructor
    · rintro ⟨hchars, hhead, hcount⟩
      exact ⟨by simpa using hchars, by simpa [Option.any_eq_true] using hhead, hcount⟩
    · intro h
      exact ⟨by simpa using h.mem_wordChars, by simpa [Option.any_eq_true] using h.head_mem, h.two_le_count⟩

/-- A word as it stands, with a large first letter, or in large letters throughout. -/
def written : Capitalization → Text → Text
  | .lowercase, w => w
  | .firstOnly, w => w.modifyHead Char.toUpper
  | .uppercase, w => w.map Char.toUpper

/-! ## Letters -/

/-- How the character of a word is written small and large. -/
structure Plain (c : Char) : Prop where
  upperOf_eq : upperOf c = [c.toUpper]
  lowerOf_eq : lowerOf c = [c]
  lowerOf_toUpper : lowerOf c.toUpper = [c]
  ne_sigma : 'Σ' ≠ c ∧ 'Σ' ≠ c.toUpper
  isUppercase_eq : isUppercase c = false
  isUppercase_toUpper : isUppercase c.toUpper = decide (c ∈ letters)
  isLowercase_eq : isLowercase c = decide (c ∈ letters)
  isLowercase_toUpper : isLowercase c.toUpper = false
  isAlphabetic_eq : isAlphabetic c = decide (c ∈ letters)
  isAlphabetic_toUpper : isAlphabetic c.toUpper = decide (c ∈ letters)
  isWhitespace_eq : isWhitespace c = false

instance (c : Char) : Decidable (Plain c) :=
  decidable_of_iff (upperOf c = [c.toUpper] ∧ lowerOf c = [c] ∧ lowerOf c.toUpper = [c] ∧
      ('Σ' ≠ c ∧ 'Σ' ≠ c.toUpper) ∧ isUppercase c = false ∧
      isUppercase c.toUpper = decide (c ∈ letters) ∧ isLowercase c = decide (c ∈ letters) ∧
      isLowercase c.toUpper = false ∧ isAlphabetic c = decide (c ∈ letters) ∧
      isAlphabetic c.toUpper = decide (c ∈ letters) ∧ isWhitespace c = false)
    ⟨fun ⟨h₁, h₂, h₃, h₄, h₅, h₆, h₇, h₈, h₉, h₁₀, h₁₁⟩ => ⟨h₁, h₂, h₃, h₄, h₅, h₆, h₇, h₈, h₉, h₁₀, h₁₁⟩,
      fun ⟨h₁, h₂, h₃, h₄, h₅, h₆, h₇, h₈, h₉, h₁₀, h₁₁⟩ => ⟨h₁, h₂, h₃, h₄, h₅, h₆, h₇, h₈, h₉, h₁₀, h₁₁⟩⟩

theorem plain_of_mem {c : Char} (hc : c ∈ wordChars) : Plain c := by
  have hall : wordChars.all (fun c => decide (Plain c)) = true := by decide +kernel
  exact of_decide_eq_true (List.all_eq_true.1 hall c hc)

/-! ## Words -/

variable {w : Text} {c : Char} {rest : List Char}

theorem upperChars_eq (h : ∀ c ∈ w, c ∈ wordChars) : w.upperChars = w.map Char.toUpper := by
  induction w with
  | nil => rfl
  | cons c w ih =>
    rw [Text.upperChars, List.flatMap_cons, (plain_of_mem (h c List.mem_cons_self)).upperOf_eq, List.map_cons,
      ← ih fun d hd => h d (List.mem_cons_of_mem _ hd)]
    rfl

theorem lowerChars_map {f : Char → Char} (h : ∀ c ∈ w, lowerOf (f c) = [c]) :
    Text.lowerChars (w.map f) = w := by
  induction w with
  | nil => rfl
  | cons c w ih =>
    rw [List.map_cons, Text.lowerChars, List.flatMap_cons, h c List.mem_cons_self, ← Text.lowerChars,
      ih fun d hd => h d (List.mem_cons_of_mem _ hd)]
    rfl

theorem lowerChars_eq (h : ∀ c ∈ w, c ∈ wordChars) : w.lowerChars = w := by
  have hmap := lowerChars_map (w := w) (f := id) fun c hc => (plain_of_mem (h c hc)).lowerOf_eq
  rwa [List.map_id] at hmap

theorem capitalizeFirst_cons (h : c ∈ wordChars) :
    Text.capitalizeFirst (c :: rest) = c.toUpper :: rest := by
  rw [Text.capitalizeFirst, (plain_of_mem h).upperOf_eq]
  rfl

namespace IsWord

/-- A word is its first letter and what stands behind it, where there is another letter. -/
theorem exists_cons (h : IsWord w) : ∃ c rest, w = c :: rest ∧ c ∈ letters ∧ c ∈ wordChars ∧
    (∀ d ∈ rest, d ∈ wordChars) ∧ ∃ d ∈ rest, d ∈ letters := by
  cases w with
  | nil =>
    obtain ⟨c, hc, -⟩ := h.head_mem
    cases hc
  | cons c rest =>
    obtain ⟨c', hc', hletter⟩ := h.head_mem
    cases hc'
    have htwo := h.two_le_count
    simp only [List.countP_cons, hletter, decide_true, if_true] at htwo
    obtain ⟨d, hd, hletter'⟩ := List.countP_pos_iff.1 (show 0 < rest.countP (· ∈ letters) by omega)
    exact ⟨c, rest, rfl, hletter, h.mem_wordChars c List.mem_cons_self,
      fun d hd => h.mem_wordChars d (List.mem_cons_of_mem _ hd), d, hd, of_decide_eq_true hletter'⟩

/-- Capitalising changes the letters it is about, and no other character. -/
theorem apply_eq_written (h : IsWord w) (style : Capitalization) :
    style.apply w = style.written w := by
  cases style with
  | uppercase => exact upperChars_eq h.mem_wordChars
  | firstOnly =>
    obtain ⟨c, rest, rfl, -, hc, -⟩ := h.exists_cons
    exact capitalizeFirst_cons hc
  | lowercase => exact lowerChars_eq h.mem_wordChars

/-- A capitalised word in lowercase is the word. -/
theorem lowercase_apply (h : IsWord w) (style : Capitalization) : (style.apply w).lowercase = w := by
  have hchars := h.mem_wordChars
  cases style with
  | uppercase =>
    have hsigma : 'Σ' ∉ w.map Char.toUpper := by
      intro hmem
      obtain ⟨c, hc, heq⟩ := List.mem_map.1 hmem
      exact (plain_of_mem (hchars c hc)).ne_sigma.2 heq.symm
    rw [apply, upperChars_eq hchars, Text.lowercase_of_no_sigma hsigma]
    exact lowerChars_map fun c hc => (plain_of_mem (hchars c hc)).lowerOf_toUpper
  | firstOnly =>
    obtain ⟨c, rest, rfl, -, hc, hrest, -⟩ := h.exists_cons
    have hsigma : 'Σ' ∉ c.toUpper :: rest := by
      intro hmem
      rcases List.mem_cons.1 hmem with heq | hmem
      · exact (plain_of_mem hc).ne_sigma.2 heq
      · exact (plain_of_mem (hrest _ hmem)).ne_sigma.1 rfl
    rw [apply, capitalizeFirst_cons hc, Text.lowercase_of_no_sigma hsigma, Text.lowerChars,
      List.flatMap_cons, (plain_of_mem hc).lowerOf_toUpper, ← Text.lowerChars, lowerChars_eq hrest]
    rfl
  | lowercase =>
    have hsigma : 'Σ' ∉ w := fun hmem => (plain_of_mem (hchars _ hmem)).ne_sigma.1 rfl
    rw [apply, lowerChars_eq hchars, Text.lowercase_of_no_sigma hsigma, lowerChars_eq hchars]

theorem countP_isUppercase (h : IsWord w) : 2 ≤ (w.map Char.toUpper).countP isUppercase := by
  have hcount : (w.map Char.toUpper).countP isUppercase = w.countP (· ∈ letters) := by
    rw [List.countP_map]
    refine List.countP_congr fun c hc => ?_
    rw [Function.comp_apply, (plain_of_mem (h.mem_wordChars c hc)).isUppercase_toUpper]
  rw [hcount]
  exact h.two_le_count

/-- How a word is capitalised is guessed from it. -/
theorem guess_apply (h : IsWord w) (style : Capitalization) : guess (style.apply w) = style := by
  have hchars := h.mem_wordChars
  obtain ⟨c, rest, rfl, hletter, hc, hrest, d, hd, hletter'⟩ := h.exists_cons
  have hplain := plain_of_mem hc
  have halpha : isAlphabetic c = true := by rw [hplain.isAlphabetic_eq, decide_eq_true hletter]
  have halpha' : isAlphabetic c.toUpper = true := by
    rw [hplain.isAlphabetic_toUpper, decide_eq_true hletter]
  have hsmall : rest.any isLowercase = true := by
    refine List.any_eq_true.2 ⟨d, hd, ?_⟩
    rw [(plain_of_mem (hrest d hd)).isLowercase_eq, decide_eq_true hletter']
  cases style with
  | uppercase =>
    have hmany := h.countP_isUppercase
    have hnone : ((c :: rest).map Char.toUpper).any isLowercase = false := by
      refine List.any_eq_false.2 fun e he => ?_
      obtain ⟨e', he', rfl⟩ := List.mem_map.1 he
      rw [(plain_of_mem (hchars e' he')).isLowercase_toUpper]
      exact Bool.false_ne_true
    rw [List.map_cons] at hmany hnone
    rw [apply, upperChars_eq hchars, List.map_cons, guess, halpha', hnone, decide_eq_true hmany]
    rfl
  | firstOnly =>
    have hcapital : isUppercase c.toUpper = true := by
      rw [hplain.isUppercase_toUpper, decide_eq_true hletter]
    rw [apply, capitalizeFirst_cons hc, guess, halpha', List.any_cons, hsmall, Bool.or_true, Bool.not_true,
      Bool.and_false, hcapital]
    rfl
  | lowercase =>
    rw [apply, lowerChars_eq hchars, guess, halpha, List.any_cons, hsmall, Bool.or_true, Bool.not_true,
      Bool.and_false, hplain.isUppercase_eq]
    rfl

end IsWord

end VoiceEdit.Capitalization
