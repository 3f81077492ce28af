import VoiceEdit.Proofs.Text.Lines
import VoiceEdit.Proofs.Text.Runs

/-!
# Scanning again

A scan that starts from a place which another scan has passed, or has stopped at, stops
where that one did. This is what makes the answer of a scan stand when it is scanned again.

Results:

* `add_runAfter_eq`, `sub_runBefore_eq`: where a run ends is all there is to say of it.
* `add_runAfter_of_mem`, `sub_runBefore_of_mem`: a run from a place inside a run.
* `lineStart_of_mem`, `lineEnd_of_mem`: every place on a line has that line.
* `isWhitespace_of_lt_trimmedBounds`, `isWhitespace_of_trimmedBounds_le`: what is trimmed off.
* `trims_trimmedBounds`: and what is left.
* `exitOffset_drop`: a scan through groups that starts where one stopped.
-/
namespace VoiceEdit

namespace Text

variable {t : Text} {p q : Char → Bool} {i j k : Nat} {s : Span}

/-! ## Classes -/

theorem lt_length_of_nextIs (h : t.nextIs p i = true) : i < t.length := by
  obtain ⟨c, hc, -⟩ := nextIs_iff.1 h
  exact (List.getElem?_eq_some_iff.1 hc).1

/-- A character of one class is of no class that is disjoint from it. -/
theorem not_nextIs_of_disjoint (hpq : ∀ c, p c = true → q c = false) (h : t.nextIs p i = true) :
    t.nextIs q i = false := by
  obtain ⟨c, hc, hp⟩ := nextIs_iff.1 h
  rw [nextIs, hc, Option.any_some, hpq c hp]

/-! ## Runs -/

/-- A stretch of characters of the class, with none of them behind it, is the run. -/
theorem add_runAfter_eq (h : i ≤ j) (hrun : ∀ k, i ≤ k → k < j → t.nextIs p k = true)
    (hend : t.nextIs p j = false) : i + t.runAfter p i = j := by
  have hle := runAfter_le_of_not_nextIs hend h
  by_cases hlt : i + t.runAfter p i < j
  · have hin := hrun _ (Nat.le_add_right _ _) hlt
    rw [not_nextIs_add_runAfter] at hin
    cases hin
  · omega

/-- Where no character of the class stands, no run starts. -/
theorem add_runAfter_eq_self (h : t.nextIs p i = false) : i + t.runAfter p i = i :=
  add_runAfter_eq (Nat.le_refl _) (fun k hk hlt => by omega) h

/-- A stretch of characters of the class, with none of them before it, is the run, read
backwards. -/
theorem sub_runBefore_eq (hi : i ≤ t.length) (h : j ≤ i)
    (hrun : ∀ k, j ≤ k → k < i → t.nextIs p k = true) (hend : t.prevIs p j = false) :
    i - t.runBefore p i = j := by
  have hle := sub_le_runBefore hi hrun
  by_cases hlt : i - t.runBefore p i < j
  · have hin := nextIs_of_sub_runBefore_le (p := p) hi (k := j - 1) (by omega) (by omega)
    rw [prevIs_iff.2 ⟨by omega, hin⟩] at hend
    cases hend
  · omega

theorem add_runAfter_of_mem (h : i ≤ j) (hj : j ≤ i + t.runAfter p i) :
    j + t.runAfter p j = i + t.runAfter p i := by
  have hrest := runAfter_add (t := t) (p := p) (i := i) (n := j - i) (by omega)
  rw [Nat.add_sub_cancel' h] at hrest
  omega

theorem sub_runBefore_of_mem (hi : i ≤ t.length) (hj : i - t.runBefore p i ≤ j) (h : j ≤ i) :
    j - t.runBefore p j = i - t.runBefore p i := by
  refine sub_runBefore_eq (by omega) hj (fun k hk hlt => ?_) (not_prevIs_sub_runBefore hi)
  exact nextIs_of_sub_runBefore_le hi hk (by omega)

/-! ## The last character of a span -/

/-- `s` has a last character, which satisfies `p`. -/
def lastIs (t : Text) (p : Char → Bool) (s : Span) : Bool := !s.isEmpty && t.prevIs p s.stop

theorem lastIs_iff : t.lastIs p s = true ↔ s.start < s.stop ∧ t.nextIs p (s.stop - 1) = true := by
  have hle := s.start_le_stop
  rw [lastIs, Bool.and_eq_true, Bool.not_eq_true', ← Bool.not_eq_true, Span.isEmpty_iff, prevIs_iff]
  constructor
  · rintro ⟨hne, -, hlast⟩
    exact ⟨by omega, hlast⟩
  · rintro ⟨hlt, hlast⟩
    exact ⟨by omega, by omega, hlast⟩

/-! ## Lines -/

/-- A line holds no newline. -/
theorem nextIs_of_mem_line (hi : i ≤ t.length) (hk : t.lineStart i ≤ k) (hlt : k < t.lineEnd i) :
    t.nextIs (· != '\n') k = true := by
  by_cases hki : k < i
  · simp only [lineStart, Nat.min_eq_left hi] at hk
    exact nextIs_of_sub_runBefore_le hi hk hki
  · rw [lineEnd_eq hi] at hlt
    exact nextIs_of_lt_add_runAfter (by omega) hlt

/-- Nothing stands before a line, or a newline does. -/
theorem not_prevIs_lineStart (hi : i ≤ t.length) : t.prevIs (· != '\n') (t.lineStart i) = false := by
  simp only [lineStart, Nat.min_eq_left hi]
  exact not_prevIs_sub_runBefore hi

/-- Nothing stands behind a line, or a newline does. -/
theorem not_nextIs_lineEnd (hi : i ≤ t.length) : t.nextIs (· != '\n') (t.lineEnd i) = false := by
  rw [lineEnd_eq hi]
  exact not_nextIs_add_runAfter t _ i

theorem lineStart_of_mem (hi : i ≤ t.length) (hj : t.lineStart i ≤ j) (h : j ≤ t.lineEnd i) :
    t.lineStart j = t.lineStart i := by
  have hlen := t.lineEnd_le_length i
  have hrun : j - t.runBefore (· != '\n') j = t.lineStart i :=
    sub_runBefore_eq (by omega) hj (fun k hk hlt => nextIs_of_mem_line hi hk (by omega))
      (not_prevIs_lineStart hi)
  simpa only [lineStart, Nat.min_eq_left (Nat.le_trans h hlen)] using hrun

theorem lineEnd_of_mem (hi : i ≤ t.length) (hj : t.lineStart i ≤ j) (h : j ≤ t.lineEnd i) :
    t.lineEnd j = t.lineEnd i := by
  have hlen := t.lineEnd_le_length i
  rw [lineEnd_eq (Nat.le_trans h hlen)]
  exact add_runAfter_eq h (fun k hk hlt => nextIs_of_mem_line hi (by omega) hlt)
    (not_nextIs_lineEnd hi)

/-- A line ends at once where a newline stands. -/
theorem lineEnd_eq_self (h : t.nextIs (· == '\n') i = true) : t.lineEnd i = i := by
  have hend : t.nextIs (· != '\n') i = false := not_nextIs_of_disjoint (by simp) h
  rw [lineEnd_eq (Nat.le_of_lt (lt_length_of_nextIs h))]
  exact add_runAfter_eq_self hend

/-! ## Trimming -/

theorem isWhitespace_of_lt_trimmedBounds {start stop : Nat} (hk : start ≤ k)
    (h : k < (t.trimmedBounds start stop).1) : t.nextIs Unicode.isWhitespace k = true := by
  simp only [trimmedBounds] at h
  exact nextIs_of_lt_add_runAfter hk (by omega)

theorem isWhitespace_of_trimmedBounds_le {start stop : Nat} (hstop : stop ≤ t.length)
    (hk : (t.trimmedBounds start stop).2 ≤ k) (h : k < stop) :
    t.nextIs Unicode.isWhitespace k = true := by
  simp only [trimmedBounds] at hk
  exact nextIs_of_sub_runBefore_le hstop (by omega) h

/-- What goes from `first` to `last` is what goes from `start` to `stop` without the white space at
its ends; of a blank stretch that is nothing, at its end. -/
structure Trims (t : Text) (start stop first last : Nat) : Prop where
  start_le : start ≤ first
  first_le_last : first ≤ last
  last_le : last ≤ stop
  front : ∀ i, start ≤ i → i < first → t.nextIs Unicode.isWhitespace i = true
  back : ∀ i, last ≤ i → i < stop → t.nextIs Unicode.isWhitespace i = true
  first_content : first < stop → t.nextIs Unicode.isWhitespace first = false
  last_content : first < last → t.nextIs Unicode.isWhitespace (last - 1) = false

theorem trims_trimmedBounds {start stop : Nat} (h : start ≤ stop) (hstop : stop ≤ t.length) :
    Trims t start stop (t.trimmedBounds start stop).1 (t.trimmedBounds start stop).2 := by
  obtain ⟨h₁, h₂, h₃⟩ := trimmedBounds_le (t := t) h
  refine ⟨h₁, h₂, h₃, fun i hi hlt => isWhitespace_of_lt_trimmedBounds hi hlt,
    fun i hi hlt => isWhitespace_of_trimmedBounds_le hstop hi hlt, fun hlt => ?_, fun hlt => ?_⟩
  · have hend := not_nextIs_add_runAfter t Unicode.isWhitespace start
    simp only [trimmedBounds] at hlt ⊢
    rwa [Nat.min_eq_left (by omega)]
  · have hend := not_prevIs_sub_runBefore (p := Unicode.isWhitespace) hstop
    have hlast : (t.trimmedBounds start stop).2 = stop - t.runBefore Unicode.isWhitespace stop := by
      simp only [trimmedBounds] at hlt ⊢
      omega
    rw [hlast] at hlt ⊢
    refine eq_false_of_ne_true fun hblank => ?_
    rw [prevIs_iff.2 ⟨by omega, hblank⟩] at hend
    cases hend

/-! ## What is left to read -/

theorem drop_before (hi : i ≤ t.length) (n : Nat) : (t.before i).drop n = t.before (i - n) := by
  have hlen : (t.take i).length = i := by rw [List.length_take]; omega
  rw [before, List.drop_reverse, hlen, List.take_take, Nat.min_eq_left (Nat.sub_le _ _)]
  rfl

theorem drop_after (t : Text) (i n : Nat) : (t.after i).drop n = t.after (i + n) := List.drop_drop

end Text

/-! ## Groups -/

variable {α : Type} {enter leave stop : α → Bool} {depth n : Nat} {as : List α}

/-- A scan that starts at what another stopped at stops there at once. -/
theorem exitOffset_drop (h : exitOffset enter leave stop depth as = some n) :
    exitOffset enter leave stop 0 (as.drop n) = some 0 := by
  fun_induction exitOffset enter leave stop depth as generalizing n with
  | case1 => cases h
  | case2 _ _ _ _ ih | case4 _ _ _ _ _ ih | case6 _ _ _ _ _ _ ih =>
    obtain ⟨m, hm, rfl⟩ := Option.map_eq_some_iff.1 h
    exact ih hm
  | case3 a rest henter hleave =>
    cases h
    exact exitOffset_eq_zero rest (eq_false_of_ne_true henter) (.inl hleave)
  | case5 depth a rest henter _ hstop =>
    cases h
    rw [Bool.and_eq_true] at hstop
    exact exitOffset_eq_zero rest (eq_false_of_ne_true henter) (.inr hstop.2)

/-- A scan passes what neither opens nor closes a group, nor stops it. -/
theorem exitOffset_cons {a : α} (henter : enter a = false) (hleave : leave a = false)
    (hstop : stop a = false) (rest : List α) : exitOffset enter leave stop depth (a :: rest) =
      (exitOffset enter leave stop depth rest).map (· + 1) := by
  simp only [exitOffset, henter, hleave, hstop, Bool.and_false, Bool.false_eq_true, if_false]

end VoiceEdit
