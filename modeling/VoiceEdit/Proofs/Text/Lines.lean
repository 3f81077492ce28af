import VoiceEdit.Text.Chunks
import VoiceEdit.Text.Lines
import VoiceEdit.Text.Nesting

/-!
# Where lines and groups lie

Bounds that scans rely on: a later line starts and ends later, an indented line starts
before it ends, a group closes behind its opener.

Results:

* `lineEnd_mono`, `startOfLine_lt`, `startOfLine_mono`: later places lie on later lines.
* `nextIs_isLineBreak`: what stands before a line.
* `add_indentation_lt_lineEnd`: the first character of a line lies on it.
* `trimmedBounds_le`, `closing?_bounds`: what trimming leaves, where a group closes.
-/
namespace VoiceEdit.Text

variable {t : Text} {i j : Nat}

/-! ## Runs -/

theorem length_takeWhile_drop {p : Char → Bool} {n : Nat} {cs : List Char}
    (h : n ≤ (cs.takeWhile p).length) :
    ((cs.drop n).takeWhile p).length + n = (cs.takeWhile p).length := by
  induction n generalizing cs with
  | zero => rfl
  | succ n ih =>
    cases cs with
    | nil => exact absurd h (Nat.not_succ_le_zero n)
    | cons c cs =>
      by_cases hc : p c = true
      · rw [List.takeWhile_cons_of_pos hc, List.length_cons] at h ⊢
        have := ih (Nat.le_of_succ_le_succ h)
        rw [List.drop_succ_cons]
        omega
      · rw [List.takeWhile_cons_of_neg hc] at h
        exact absurd h (Nat.not_succ_le_zero n)

/-- Inside a run, what is left of it shrinks step by step. -/
theorem runAfter_add {p : Char → Bool} {n : Nat} (h : n ≤ t.runAfter p i) :
    t.runAfter p (i + n) + n = t.runAfter p i := by
  have hdrop := length_takeWhile_drop h
  rwa [after, List.drop_drop] at hdrop

theorem le_trimmedBounds (t : Text) (start stop : Nat) : start ≤ (t.trimmedBounds start stop).1 :=
  Nat.le_add_right _ _

/-- What is trimmed off an ordered span leaves an ordered span inside it. -/
theorem trimmedBounds_le {start stop : Nat} (h : start ≤ stop) :
    start ≤ (t.trimmedBounds start stop).1 ∧
      (t.trimmedBounds start stop).1 ≤ (t.trimmedBounds start stop).2 ∧
      (t.trimmedBounds start stop).2 ≤ stop := by
  simp only [trimmedBounds]
  omega

/-! ## Lines -/

theorem lineEnd_eq (h : i ≤ t.length) : t.lineEnd i = i + t.runAfter (· != '\n') i := by
  simp only [lineEnd, Nat.min_eq_left h]

theorem lineEnd_mono (h : i ≤ j) : t.lineEnd i ≤ t.lineEnd j := by
  have hi := t.lineEnd_le_length i
  by_cases hj : t.length ≤ j
  · have hlast : t.length ≤ t.lineEnd j := by
      simp only [lineEnd, Nat.min_eq_right hj]
      omega
    omega
  · have hle := t.le_lineEnd (i := j) (by omega)
    by_cases hline : t.lineEnd i ≤ j
    · omega
    · -- Both lie on one line, and the rest of it is what is left of its run.
      rw [lineEnd_eq (by omega)] at hline ⊢
      have hrun := runAfter_add (t := t) (p := (· != '\n')) (i := i) (n := j - i) (by omega)
      rw [Nat.add_sub_cancel' h] at hrun
      rw [lineEnd_eq (by omega)]
      omega

theorem pairwise_lineStartsFrom (pos : Nat) (cs : List Char) :
    (lineStartsFrom pos cs).Pairwise (· < ·) := by
  fun_induction lineStartsFrom pos cs with
  | case1 => exact .nil
  | case2 pos rest ih => exact .cons (fun n hn => (mem_lineStartsFrom_le hn).1) ih
  | case3 pos c rest _ _ ih => exact .cons (fun n hn => (mem_lineStartsFrom_le hn).1) ih
  | case4 pos c rest _ _ ih => exact ih

theorem pairwise_lineStarts (t : Text) : t.lineStarts.Pairwise (· < ·) :=
  .cons (fun _ hn => (mem_lineStartsFrom_le hn).1) (pairwise_lineStartsFrom 0 t)

theorem startOfLine_le (n : Nat) : t.startOfLine n ≤ t.length := by
  unfold startOfLine
  cases h : t.lineStarts[n]? with
  | none => exact Nat.le_refl _
  | some start => exact mem_lineStarts_le (List.mem_of_getElem? h)

theorem startOfLine_lt {n m : Nat} (h : n < m) (hm : m < t.lineCount) :
    t.startOfLine n < t.startOfLine m := by
  have hn : n < t.lineStarts.length := Nat.lt_trans h hm
  simp only [startOfLine, List.getElem?_eq_getElem hn, List.getElem?_eq_getElem hm, Option.getD_some]
  exact List.pairwise_iff_getElem.1 t.pairwise_lineStarts n m hn hm h

theorem startOfLine_mono {n m : Nat} (h : n ≤ m) : t.startOfLine n ≤ t.startOfLine m := by
  by_cases hm : m < t.lineCount
  · rcases Nat.eq_or_lt_of_le h with rfl | hlt
    · exact Nat.le_refl _
    · exact Nat.le_of_lt (startOfLine_lt hlt hm)
  · have hlast : t.startOfLine m = t.length := by
      simp only [startOfLine, List.getElem?_eq_none (Nat.le_of_not_lt hm), Option.getD_none]
    rw [hlast]
    exact startOfLine_le n

theorem exists_break_of_mem_lineStartsFrom {pos n : Nat} {cs : List Char}
    (h : n ∈ lineStartsFrom pos cs) :
    ∃ i c, n = pos + i + 1 ∧ cs[i]? = some c ∧ isLineBreak c = true := by
  fun_induction lineStartsFrom pos cs with
  | case1 => cases h
  | case2 pos rest ih =>
    rcases List.mem_cons.1 h with rfl | h
    · exact ⟨1, '\n', rfl, rfl, by decide⟩
    · obtain ⟨i, c, rfl, hc, hbreak⟩ := ih h
      exact ⟨i + 2, c, by omega, hc, hbreak⟩
  | case3 pos c rest _ hbreak ih =>
    rcases List.mem_cons.1 h with rfl | h
    · exact ⟨0, c, rfl, rfl, hbreak⟩
    · obtain ⟨i, c', rfl, hc, hbreak'⟩ := ih h
      exact ⟨i + 1, c', by omega, hc, hbreak'⟩
  | case4 pos c rest _ _ ih =>
    obtain ⟨i, c', rfl, hc, hbreak⟩ := ih h
    exact ⟨i + 1, c', by omega, hc, hbreak⟩

/-- Every line after the first starts behind a line break. -/
theorem nextIs_isLineBreak {n : Nat} (hn : n < t.lineCount) (hpos : t.startOfLine n ≠ 0) :
    t.nextIs isLineBreak (t.startOfLine n - 1) = true := by
  have hmem : t.startOfLine n ∈ t.lineStarts := by
    have hn' : n < t.lineStarts.length := hn
    simp only [startOfLine, List.getElem?_eq_getElem hn', Option.getD_some]
    exact List.getElem_mem hn'
  rcases List.mem_cons.1 hmem with hzero | hmem
  · exact absurd hzero hpos
  · obtain ⟨i, c, hi, hc, hbreak⟩ := exists_break_of_mem_lineStartsFrom hmem
    rw [hi, Nat.add_sub_cancel, Nat.zero_add, nextIs, hc]
    exact hbreak

/-- The first character of a line that is not white space lies before the end of the line. -/
theorem add_indentation_lt_lineEnd {n k : Nat} (h : indentation (t.lineContent n) = some k) :
    t.startOfLine n + k < t.lineEnd (t.startOfLine n) := by
  obtain ⟨hk, -⟩ := List.findIdx?_eq_some_iff_getElem.1 h
  simp only [lineContent, contentBounds, List.length_take] at hk
  omega

/-! ## Groups -/

/-- A group closes behind its opener, in the text. -/
theorem closing?_bounds {opens closes : Char → Bool} (h : t.closing? opens closes i = some j) :
    i < j ∧ j < t.length := by
  unfold closing? at h
  cases hafter : t.after i with
  | nil => rw [hafter] at h; cases h
  | cons c rest =>
    rw [hafter] at h
    have hlen := t.length_after i
    rw [hafter, List.length_cons] at hlen
    by_cases hc : opens c = true
    · simp only [if_pos hc] at h
      obtain ⟨n, hn, rfl⟩ := Option.map_eq_some_iff.1 h
      have := exitOffset_lt hn
      omega
    · simp only [if_neg hc] at h
      cases h

end VoiceEdit.Text
