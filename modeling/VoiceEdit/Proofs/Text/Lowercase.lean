import Mathlib.Data.List.Basic
import VoiceEdit.Text.Casing

/-!
# Lowercase is final

What lowercasing writes, lowercasing leaves as it is, so a text that was brought into
lowercase once can be looked up by itself. For single characters this is a property of the
table: no run is moved to where another one starts from. A capital sigma becomes one of two
small ones, whatever stands around it, and neither is moved.

Results:

* `shifted_shifted`: a table whose images no run holds moves nothing twice.
* `lowerOf_of_mem_lowerOf`: the lowercase of a character is made of characters in lowercase.
* `lowercase_lowercase`, `lowerChars_lowerChars`: the same for texts.
-/
namespace VoiceEdit

/-! ## Tables -/

namespace Unicode

/-- Where a run is moved to. -/
def CodeShift.image (s : CodeShift) : CodeRun :=
  ⟨((s.first : Int) + s.delta).toNat, ((s.last : Int) + s.delta).toNat, s.step⟩

/-- Every code point of the run is even, or every one is odd. -/
def CodeRun.alternates (r : CodeRun) : Bool := r.step == 2 || r.first == r.last

/-- One run ends before the other starts, or they go through each other. -/
def CodeRun.apart (a b : CodeRun) : Bool :=
  a.last.blt b.first || b.last.blt a.first ||
    (a.alternates && b.alternates && a.first % 2 != b.first % 2)

/-- No run is moved below zero, or to where a run starts from. -/
def movesOnce (shifts : List CodeShift) : Bool :=
  shifts.all fun s => decide (0 ≤ (s.first : Int) + s.delta) &&
    shifts.all fun r => s.image.apart r.toCodeRun

variable {shifts : List CodeShift} {s : CodeShift} {a b : CodeRun} {c : Nat}

theorem CodeRun.contains_iff :
    a.contains c = true ↔ a.first ≤ c ∧ c ≤ a.last ∧ (c - a.first) % a.step = 0 := by
  simp only [contains, Bool.and_eq_true, decide_eq_true_eq, beq_iff_eq, and_assoc]

theorem CodeRun.parity (h : a.alternates = true) (hc : a.contains c = true) :
    c % 2 = a.first % 2 := by
  obtain ⟨hfirst, hlast, hstep⟩ := contains_iff.1 hc
  simp only [alternates, Bool.or_eq_true, beq_iff_eq] at h
  rcases h with htwo | hsingle
  · rw [htwo] at hstep
    omega
  · omega

theorem CodeRun.not_contains_of_apart (h : a.apart b = true) (ha : a.contains c = true) :
    b.contains c = false := by
  refine eq_false_of_ne_true fun hb => ?_
  obtain ⟨ha₁, ha₂, -⟩ := contains_iff.1 ha
  obtain ⟨hb₁, hb₂, -⟩ := contains_iff.1 hb
  simp only [apart, Bool.or_eq_true, Bool.and_eq_true, Nat.blt_eq, bne_iff_ne, ne_eq] at h
  rcases h with (h | h) | ⟨⟨halt, halt'⟩, hparity⟩
  · omega
  · omega
  · exact hparity ((parity halt ha).symm.trans (parity halt' hb))

theorem CodeShift.image_contains (h : 0 ≤ (s.first : Int) + s.delta) (hc : s.contains c = true) :
    s.image.contains ((c : Int) + s.delta).toNat = true := by
  obtain ⟨hfirst, hlast, hstep⟩ := CodeRun.contains_iff.1 hc
  refine CodeRun.contains_iff.2 ⟨by simp only [image]; omega, by simp only [image]; omega, ?_⟩
  have hdistance : ((c : Int) + s.delta).toNat - s.image.first = c - s.first := by
    simp only [image]
    omega
  rw [hdistance]
  exact hstep

theorem shifted_eq_self (h : ∀ s ∈ shifts, s.contains c = false) : shifted shifts c = c := by
  induction shifts with
  | nil => rfl
  | cons s rest ih =>
    rw [shifted, h s List.mem_cons_self]
    by_cases hc : c < s.first
    · rw [if_pos hc]
    · rw [if_neg hc, if_neg Bool.false_ne_true]
      exact ih fun s' hs' => h s' (List.mem_cons_of_mem _ hs')

/-- A code point stays where it is, or the run that holds it moves it. -/
theorem shifted_cases (shifts : List CodeShift) (c : Nat) :
    shifted shifts c = c ∨
      ∃ s ∈ shifts, s.contains c = true ∧ shifted shifts c = ((c : Int) + s.delta).toNat := by
  induction shifts with
  | nil => exact .inl rfl
  | cons s rest ih =>
    rw [shifted]
    by_cases hc : c < s.first
    · rw [if_pos hc]
      exact .inl rfl
    · rw [if_neg hc]
      by_cases hin : s.contains c = true
      · rw [if_pos hin]
        exact .inr ⟨s, List.mem_cons_self, hin, rfl⟩
      · rw [if_neg hin]
        rcases ih with hstay | ⟨s', hs', hmoved⟩
        · exact .inl hstay
        · exact .inr ⟨s', List.mem_cons_of_mem _ hs', hmoved⟩

/-- What a run is moved to is not moved again. -/
theorem not_contains_image (h : movesOnce shifts = true) (hs : s ∈ shifts)
    (hc : s.contains c = true) : ∀ r ∈ shifts, r.contains ((c : Int) + s.delta).toNat = false := by
  intro r hr
  have hmoves := List.all_eq_true.1 h s hs
  rw [Bool.and_eq_true, decide_eq_true_eq] at hmoves
  exact CodeRun.not_contains_of_apart (List.all_eq_true.1 hmoves.2 r hr)
    (CodeShift.image_contains hmoves.1 hc)

theorem shifted_shifted (h : movesOnce shifts = true) (c : Nat) :
    shifted shifts (shifted shifts c) = shifted shifts c := by
  rcases shifted_cases shifts c with hstay | ⟨s, hs, hin, hmoved⟩
  · rw [hstay, hstay]
  · rw [hmoved]
    exact shifted_eq_self (not_contains_image h hs hin)

/-! ## Characters -/

/-- What is moved is not moved again. Nothing is moved to the capital I with a dot, which is not in
the table; the dot, the two small sigmas and NUL stay, and the capital sigma does not. -/
theorem lower_tables : movesOnce lowerShifts = true ∧
    (∀ s ∈ lowerShifts, s.image.contains 0x130 = false) ∧
    ([Char.ofNat 0x307, 'σ', 'ς', '\x00'].all fun c => lowerOf c == [c]) = true ∧
    lowerOf 'Σ' ≠ ['Σ'] := by
  decide +kernel

theorem lowerOf_eq_self {c : Char} (h : c ∈ [Char.ofNat 0x307, 'σ', 'ς', '\x00']) :
    lowerOf c = [c] := by
  obtain ⟨-, -, hstay, -⟩ := lower_tables
  exact eq_of_beq (List.all_eq_true.1 hstay c h)

theorem lowerOf_ofNat {n : Nat} (hn : n ≠ 0x130) (h : shifted lowerShifts n = n) :
    lowerOf (Char.ofNat n) = [Char.ofNat n] := by
  by_cases hvalid : n.isValidChar
  · have hcode : (Char.ofNat n).toNat = n := by rw [Char.ofNat, dif_pos hvalid]; rfl
    rw [lowerOf, hcode, if_neg hn, h]
  · -- There is no such character; what stands for it is NUL, which is not moved.
    rw [Char.ofNat, dif_neg hvalid]
    exact lowerOf_eq_self (c := '\x00') (by simp)

/-- The lowercase of a character is made of characters in lowercase. -/
theorem lowerOf_of_mem_lowerOf {c d : Char} (h : d ∈ lowerOf c) : lowerOf d = [d] := by
  unfold lowerOf at h
  by_cases hdotted : c.toNat = 0x130
  · rw [if_pos hdotted] at h
    rcases List.mem_cons.1 h with rfl | h
    · decide
    · rw [List.mem_singleton.1 h]
      exact lowerOf_eq_self List.mem_cons_self
  · rw [if_neg hdotted] at h
    rw [List.mem_singleton.1 h]
    obtain ⟨honce, hdot, -⟩ := lower_tables
    refine lowerOf_ofNat ?_ (shifted_shifted honce c.toNat)
    rcases shifted_cases lowerShifts c.toNat with hstay | ⟨s, hs, hin, hmoved⟩
    · rwa [hstay]
    · intro himage
      have hmoves := List.all_eq_true.1 honce s hs
      rw [Bool.and_eq_true, decide_eq_true_eq] at hmoves
      have hcontains := CodeShift.image_contains hmoves.1 hin
      rw [← hmoved, himage, hdot s hs] at hcontains
      cases hcontains

end Unicode

/-! ## Texts -/

namespace Text

open Unicode

variable {t : Text}

theorem lowerOf_of_mem_lowercaseFrom {prior : List Char} {d : Char}
    (h : d ∈ lowercaseFrom prior t) : lowerOf d = [d] := by
  induction t generalizing prior with
  | nil => cases h
  | cons c rest ih =>
    rcases List.mem_append.1 h with h | h
    · by_cases hsigma : c = 'Σ'
      · rw [if_pos hsigma, List.mem_singleton] at h
        rw [h]
        split
        · exact lowerOf_eq_self (by simp)
        · exact lowerOf_eq_self (by simp)
      · rw [if_neg hsigma] at h
        exact lowerOf_of_mem_lowerOf h
    · exact ih h

/-- Lowercasing by characters leaves a text as it is that is made of characters in lowercase. -/
theorem lowerChars_eq_self_iff : t.lowerChars = t ↔ ∀ d ∈ t, lowerOf d = [d] := by
  constructor
  · intro h d hd
    rw [← h] at hd
    obtain ⟨c, -, hc⟩ := List.mem_flatMap.1 hd
    exact lowerOf_of_mem_lowerOf hc
  · intro h
    have hsame : t.lowerChars = t.flatMap fun d => [d] := List.flatMap_congr h
    rw [hsame, List.flatMap_singleton']

/-- A text of characters in lowercase is in lowercase. -/
theorem lowercase_eq_self (h : ∀ d ∈ t, lowerOf d = [d]) : t.lowercase = t := by
  have hsigma : 'Σ' ∉ t := fun hmem => lower_tables.2.2.2 (h 'Σ' hmem)
  rw [lowercase_of_no_sigma hsigma]
  exact lowerChars_eq_self_iff.2 h

/-- Lowercasing twice is lowercasing once. -/
theorem lowercase_lowercase (t : Text) : t.lowercase.lowercase = t.lowercase :=
  lowercase_eq_self fun _ h => lowerOf_of_mem_lowercaseFrom h

theorem lowerChars_lowerChars (t : Text) : t.lowerChars.lowerChars = t.lowerChars := by
  refine lowerChars_eq_self_iff.2 fun d hd => ?_
  obtain ⟨c, -, hc⟩ := List.mem_flatMap.1 hd
  exact lowerOf_of_mem_lowerOf hc

end Text

end VoiceEdit
