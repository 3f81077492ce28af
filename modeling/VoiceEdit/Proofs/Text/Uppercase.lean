import VoiceEdit.Proofs.Text.Lowercase

/-!
# Uppercase

What stands first in the uppercase of a character is left as it is by uppercasing, so a text that
was capitalised once is capitalised. Neither case turns anything else into white space, so words
stay words, whatever case they are brought into. Both are properties of the tables.

Results:

* `upperOf_of_head?_upperOf`: the first character of an uppercase form is its own.
* `isWhitespace_of_mem_upperOf`, `isWhitespace_of_mem_lowerOf`: no white space comes out of a word.
* `capitalizeFirst_capitalizeFirst`: a text that was capitalised is capitalised.
-/
namespace VoiceEdit

/-! ## Tables -/

namespace Unicode

variable {shifts : List CodeShift} {runs : List CodeRun} {c d : Char} {n : Nat}

/-- No run is moved into one of these. -/
def avoids (shifts : List CodeShift) (runs : List CodeRun) : Bool :=
  shifts.all fun s => runs.all fun r => s.image.apart r

/-- What stays out of the runs that the table avoids stays out of them. -/
theorem not_contains_shifted (hmoves : movesOnce shifts = true) (havoids : avoids shifts runs = true)
    (h : ∀ r ∈ runs, r.contains n = false) : ∀ r ∈ runs, r.contains (shifted shifts n) = false := by
  rcases shifted_cases shifts n with hstay | ⟨s, hs, hin, hmoved⟩
  · rwa [hstay]
  · intro r hr
    have hnonneg := List.all_eq_true.1 hmoves s hs
    rw [Bool.and_eq_true, decide_eq_true_eq] at hnonneg
    rw [hmoved]
    exact CodeRun.not_contains_of_apart (List.all_eq_true.1 (List.all_eq_true.1 havoids s hs) r hr)
      (CodeShift.image_contains hnonneg.1 hin)

/-- The code points whose image is several characters. -/
def expandedRuns : List CodeRun := upperExpansions.map fun e => ⟨e.1, e.1, 1⟩

/-! ## The first character of an uppercase form -/

/-- What a shift moves is not moved again and has no image of several characters; such an image
begins with a character that is its own uppercase. -/
theorem upper_tables : movesOnce upperShifts = true ∧ avoids upperShifts expandedRuns = true ∧
    (upperExpansions.all fun e =>
      e.2.head?.any fun n => upperOf (Char.ofNat n) == [Char.ofNat n]) = true ∧
    upperOf '\x00' = ['\x00'] := by
  decide +kernel

theorem lookup_eq_none_iff : upperExpansions.lookup n = none ↔
    ∀ r ∈ expandedRuns, r.contains n = false := by
  rw [expandedRuns, List.forall_mem_map, List.lookup_eq_none_iff]
  refine forall₂_congr fun e _ => ?_
  rw [← Bool.not_eq_true, CodeRun.contains_iff, bne_iff_ne, ne_eq, not_congr]
  simp only [Nat.mod_one, and_true]
  omega

theorem mem_of_lookup {image : List Nat} (h : upperExpansions.lookup n = some image) :
    (n, image) ∈ upperExpansions := by
  obtain ⟨before, behind, heq, -⟩ := List.lookup_eq_some_iff.1 h
  rw [heq]
  exact List.mem_append_right _ List.mem_cons_self

/-- An image of several characters begins with one that is its own uppercase. -/
theorem head?_image {image : List Nat} (h : upperExpansions.lookup n = some image) :
    ∃ m, image.head? = some m ∧ upperOf (Char.ofNat m) = [Char.ofNat m] := by
  obtain ⟨-, -, hheads, -⟩ := upper_tables
  obtain ⟨m, hm, hown⟩ := (Option.any_eq_true _ _).1 (List.all_eq_true.1 hheads _ (mem_of_lookup h))
  exact ⟨m, hm, eq_of_beq hown⟩

theorem upperOf_ofNat (hexpanded : upperExpansions.lookup n = none) (h : shifted upperShifts n = n) :
    upperOf (Char.ofNat n) = [Char.ofNat n] := by
  by_cases hvalid : n.isValidChar
  · have hcode : (Char.ofNat n).toNat = n := by rw [Char.ofNat, dif_pos hvalid]; rfl
    rw [upperOf, hcode, hexpanded, h]
  · -- There is no such character; what stands for it is NUL, which is not moved.
    obtain ⟨-, -, -, hnul⟩ := upper_tables
    rw [Char.ofNat, dif_neg hvalid]
    exact hnul

/-- The first character of an uppercase form is its own uppercase. -/
theorem upperOf_of_head?_upperOf (h : d ∈ (upperOf c).head?) : upperOf d = [d] := by
  unfold upperOf at h
  cases hlookup : upperExpansions.lookup c.toNat with
  | some image =>
    obtain ⟨m, hm, hown⟩ := head?_image hlookup
    rw [hlookup, List.head?_map, hm] at h
    cases h
    exact hown
  | none =>
    rw [hlookup] at h
    cases h
    obtain ⟨hmoves, havoids, -, -⟩ := upper_tables
    refine upperOf_ofNat ?_ (shifted_shifted hmoves c.toNat)
    rw [lookup_eq_none_iff] at hlookup ⊢
    exact not_contains_shifted hmoves havoids hlookup

theorem upperOf_ne_nil (c : Char) : upperOf c ≠ [] := by
  unfold upperOf
  cases hlookup : upperExpansions.lookup c.toNat with
  | some image =>
    obtain ⟨m, hm, -⟩ := head?_image hlookup
    intro hnil
    rw [List.map_eq_nil_iff.1 hnil] at hm
    cases hm
  | none => exact List.cons_ne_nil _ _

theorem lowerOf_ne_nil (c : Char) : lowerOf c ≠ [] := by
  unfold lowerOf
  split <;> exact List.cons_ne_nil _ _

/-! ## White space -/

theorem ascending_whitespaceRuns : Ascending whitespaceRuns := by
  unfold Ascending
  decide

theorem isWhitespace_eq_false_iff :
    isWhitespace c = false ↔ ∀ r ∈ whitespaceRuns, r.contains c.toNat = false := by
  rw [isWhitespace, ← Bool.not_eq_true, covers_iff ascending_whitespaceRuns]
  simp

theorem isWhitespace_ofNat (h : ∀ r ∈ whitespaceRuns, r.contains n = false) :
    isWhitespace (Char.ofNat n) = false := by
  by_cases hvalid : n.isValidChar
  · have hcode : (Char.ofNat n).toNat = n := by rw [Char.ofNat, dif_pos hvalid]; rfl
    rwa [isWhitespace_eq_false_iff, hcode]
  · rw [Char.ofNat, dif_neg hvalid]
    decide

/-- Neither table moves anything into white space. -/
theorem whitespace_tables :
    avoids upperShifts whitespaceRuns = true ∧ avoids lowerShifts whitespaceRuns = true ∧
    (upperExpansions.all fun e => e.2.all fun n => !isWhitespace (Char.ofNat n)) = true := by
  decide +kernel

/-- No white space comes out of another character in uppercase. -/
theorem isWhitespace_of_mem_upperOf (hc : isWhitespace c = false) (h : d ∈ upperOf c) :
    isWhitespace d = false := by
  obtain ⟨havoids, -, himages⟩ := whitespace_tables
  unfold upperOf at h
  cases hlookup : upperExpansions.lookup c.toNat with
  | some image =>
    rw [hlookup] at h
    obtain ⟨n, hn, rfl⟩ := List.mem_map.1 h
    have himage := List.all_eq_true.1 himages _ (mem_of_lookup hlookup)
    simpa using List.all_eq_true.1 himage n hn
  | none =>
    rw [hlookup, List.mem_singleton] at h
    rw [h]
    obtain ⟨hmoves, -⟩ := upper_tables
    exact isWhitespace_ofNat (not_contains_shifted hmoves havoids (isWhitespace_eq_false_iff.1 hc))

/-- No white space comes out of another character in lowercase. -/
theorem isWhitespace_of_mem_lowerOf (hc : isWhitespace c = false) (h : d ∈ lowerOf c) :
    isWhitespace d = false := by
  obtain ⟨-, havoids, -⟩ := whitespace_tables
  unfold lowerOf at h
  by_cases hdotted : c.toNat = 0x130
  · rw [if_pos hdotted] at h
    rcases List.mem_cons.1 h with rfl | h
    · decide
    · rw [List.mem_singleton.1 h]
      decide
  · rw [if_neg hdotted, List.mem_singleton] at h
    rw [h]
    obtain ⟨hmoves, -⟩ := lower_tables
    exact isWhitespace_ofNat (not_contains_shifted hmoves havoids (isWhitespace_eq_false_iff.1 hc))

end Unicode

/-! ## Texts -/

namespace Text

open Unicode

variable {t : Text}

/-- Capitalising leaves a text as it is that begins with a character in uppercase. -/
theorem capitalizeFirst_eq_self_iff : t.capitalizeFirst = t ↔ ∀ c ∈ t.head?, upperOf c = [c] := by
  cases t with
  | nil => simp [capitalizeFirst]
  | cons c rest =>
    rw [capitalizeFirst, ← List.singleton_append, List.append_cancel_right_eq]
    simp

theorem capitalizeFirst_capitalizeFirst (t : Text) :
    t.capitalizeFirst.capitalizeFirst = t.capitalizeFirst := by
  cases t with
  | nil => rfl
  | cons c rest =>
    rw [capitalizeFirst_eq_self_iff]
    intro d hd
    rw [capitalizeFirst, List.head?_append_of_ne_nil _ (upperOf_ne_nil c)] at hd
    exact upperOf_of_head?_upperOf hd

end Text

end VoiceEdit
