/-!
# Runs of code points

A property of characters is tabulated as a list of `CodeRun`s in ascending
order, each an arithmetic progression of code points: step 1 for a block, step 2
where capital and small letters alternate. A mapping of characters to characters
is tabulated as `CodeShift`s, runs that all move by one distance.

* `covers_iff`: on an ascending table, `covers` finds exactly the members of its runs.
* `shifted_eq_or_le`: a mapping moves nothing below the least image of its runs.
-/
namespace VoiceEdit.Unicode

/-- The code points `first`, `first + step`, … up to `last`. -/
structure CodeRun where
  first : Nat
  last : Nat
  step : Nat
deriving DecidableEq, Repr

def CodeRun.contains (r : CodeRun) (c : Nat) : Bool :=
  decide (r.first ≤ c) && decide (c ≤ r.last) && (c - r.first) % r.step == 0

/-- Whether some run holds `c`. The runs ascend, so the search ends at the first
run that starts beyond `c`. -/
def covers : List CodeRun → Nat → Bool
  | [], _ => false
  | r :: rs, c => if c < r.first then false else r.contains c || covers rs c

/-- The runs start in ascending order. -/
def Ascending (rs : List CodeRun) : Prop := rs.Pairwise fun a b => a.first ≤ b.first

theorem covers_iff {rs : List CodeRun} (h : Ascending rs) (c : Nat) :
    covers rs c = true ↔ ∃ r ∈ rs, r.contains c = true := by
  induction rs with
  | nil => simp [covers]
  | cons r rs ih =>
    obtain ⟨hr, hrs⟩ := List.pairwise_cons.1 h
    by_cases hc : c < r.first
    · have none_later : ∀ s ∈ r :: rs, s.contains c = false := by
        intro s hs
        have : r.first ≤ s.first := by
          rcases List.mem_cons.1 hs with rfl | hs
          · exact Nat.le_refl _
          · exact hr s hs
        have : ¬ s.first ≤ c := by omega
        simp [CodeRun.contains, this]
      simp only [covers, hc, if_true, Bool.false_eq_true, false_iff, not_exists, not_and]
      intro s hs
      simp [none_later s hs]
    · simp only [covers, hc, if_false, Bool.or_eq_true, ih hrs, List.mem_cons, exists_eq_or_imp]

/-- A run of code points that a mapping moves by `delta`. -/
structure CodeShift extends CodeRun where
  delta : Int
deriving DecidableEq, Repr

/-- The image of `c`: moved by the run that holds it, itself where none does. -/
def shifted : List CodeShift → Nat → Nat
  | [], c => c
  | s :: rest, c =>
    if c < s.first then c
    else if s.contains c then ((c : Int) + s.delta).toNat
    else shifted rest c

theorem shifted_eq_or_le {shifts : List CodeShift} {low : Nat}
    (h : ∀ s ∈ shifts, (low : Int) ≤ s.first + s.delta) (c : Nat) :
    shifted shifts c = c ∨ low ≤ shifted shifts c := by
  induction shifts with
  | nil => exact .inl rfl
  | cons s rest ih =>
    have hs := h s List.mem_cons_self
    rw [shifted]
    by_cases hc : c < s.first
    · rw [if_pos hc]
      exact .inl rfl
    · rw [if_neg hc]
      by_cases hin : s.contains c = true
      · rw [if_pos hin]
        right
        omega
      · rw [if_neg hin]
        exact ih fun s' hs' => h s' (List.mem_cons_of_mem _ hs')

end VoiceEdit.Unicode
