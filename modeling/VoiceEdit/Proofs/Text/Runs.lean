import VoiceEdit.Text.Basic

/-!
# Runs of a class of characters

A run from a position, forwards or backwards, holds characters of its class only and ends
where the class or the text does. Everything a scan says about where it stopped follows
from these two facts.

Results:

* `nextIs_of_lt_add_runAfter`, `nextIs_of_sub_runBefore_le`: what a run holds.
* `not_nextIs_add_runAfter`, `not_prevIs_sub_runBefore`: what stands at its end.
* `runAfter_le_of_not_nextIs`, `runBefore_le_of_not_nextIs`: no run goes on across a
  character of another class.
-/
namespace VoiceEdit.Text

variable {t : Text} {p : Char → Bool} {i j k : Nat}

theorem nextIs_iff : t.nextIs p i = true ↔ ∃ c, t[i]? = some c ∧ p c = true := by
  unfold nextIs
  cases t[i]? <;> simp

/-- In the text, a character that is not of the class is of its complement. -/
theorem nextIs_not (hi : i < t.length) : t.nextIs (fun c => !p c) i = !t.nextIs p i := by
  simp only [nextIs, List.getElem?_eq_getElem hi, Option.any_some]

theorem nextIs_mono {q : Char → Bool} (hpq : ∀ c, p c = true → q c = true)
    (h : t.nextIs p i = true) : t.nextIs q i = true := by
  obtain ⟨c, hc, hp⟩ := nextIs_iff.1 h
  exact nextIs_iff.2 ⟨c, hc, hpq c hp⟩

theorem prevIs_iff : t.prevIs p i = true ↔ 0 < i ∧ t.nextIs p (i - 1) = true := by
  unfold prevIs prev? nextIs
  by_cases hi : i = 0
  · simp [hi]
  · simp [hi, Nat.pos_of_ne_zero hi]

theorem prevIs_not (hpos : 0 < i) (hi : i ≤ t.length) :
    t.prevIs (fun c => !p c) i = !t.prevIs p i := by
  have hlt : i - 1 < t.length := by omega
  simp only [prevIs, prev?, if_neg (Nat.ne_of_gt hpos), List.getElem?_eq_getElem hlt, Option.any_some]

theorem before_succ {c : Char} (h : t[i]? = some c) : t.before (i + 1) = c :: t.before i := by
  simp [before, List.take_add_one, h]

theorem after_eq_cons {c : Char} (h : t[i]? = some c) : t.after i = c :: t.after (i + 1) := by
  obtain ⟨hi, hc⟩ := List.getElem?_eq_some_iff.1 h
  rw [after, List.drop_eq_getElem_cons hi, hc]
  rfl

theorem of_after_eq_cons {c : Char} {rest : List Char} (h : t.after i = c :: rest) :
    t[i]? = some c ∧ t.after (i + 1) = rest := by
  have hrest : t.after (i + 1) = (t.after i).drop 1 := List.drop_drop.symm
  rw [hrest, h, ← List.head?_drop, ← after, h]
  exact ⟨rfl, rfl⟩

/-- What stands at `i` stands there character by character. -/
theorem getElem?_of_prefix_after {m : Text} (h : m <+: t.after i) (hk : k < m.length) :
    t[i + k]? = some m[k] := by
  obtain ⟨rest, hrest⟩ := h
  rw [← List.getElem?_drop, ← after, ← hrest, List.getElem?_append_left hk, List.getElem?_eq_getElem hk]

theorem prev?_succ {c : Char} (h : t[i]? = some c) : t.prev? (i + 1) = some c := by
  rw [prev?, if_neg (Nat.succ_ne_zero i), Nat.add_sub_cancel, h]

theorem head?_before (hi : i ≤ t.length) : (t.before i).head? = t.prev? i := by
  cases i with
  | zero => rfl
  | succ i =>
    have hc : t[i]? = some t[i] := List.getElem?_eq_getElem hi
    rw [before_succ hc, prev?_succ hc, List.head?_cons]

theorem nextIs_length {c : Char} (xs ys : Text) : (xs ++ c :: ys).nextIs p xs.length = p c := by
  rw [nextIs, List.getElem?_append_right (Nat.le_refl _), Nat.sub_self, List.getElem?_cons_zero,
    Option.any_some]

/-! ## Forwards -/

/-- A run ends before the first character of another class. -/
theorem takeWhile_append_cons {c : Char} (hc : p c = false) (xs ys : List Char) :
    (xs ++ c :: ys).takeWhile p = xs.takeWhile p := by
  rw [List.takeWhile_append, List.takeWhile_cons_of_neg (ne_true_of_eq_false hc), List.append_nil]
  split
  · rename_i hall
    exact ((List.takeWhile_prefix p).eq_of_length hall).symm
  · rfl

theorem any_getElem?_takeWhile {α : Type} (p : α → Bool) (as : List α) :
    as[(as.takeWhile p).length]?.any p = false := by
  induction as with
  | nil => rfl
  | cons a as ih =>
    by_cases ha : p a = true
    · rw [List.takeWhile_cons_of_pos ha, List.length_cons, List.getElem?_cons_succ]
      exact ih
    · rw [List.takeWhile_cons_of_neg ha, List.length_nil, List.getElem?_cons_zero, Option.any_some]
      exact eq_false_of_ne_true ha

/-- A run holds characters of its class only. -/
theorem nextIs_of_lt_add_runAfter (h : i ≤ k) (hk : k < i + t.runAfter p i) :
    t.nextIs p k = true := by
  have hlt : k - i < ((t.after i).takeWhile p).length := by
    unfold runAfter at hk
    omega
  have hrun := List.takeWhile_prefix p (l := t.after i)
  have hmem := List.getElem_mem hlt
  refine nextIs_iff.2 ⟨((t.after i).takeWhile p)[k - i], ?_, List.all_eq_true.1 List.all_takeWhile _ hmem⟩
  rw [hrun.getElem hlt, ← List.getElem?_eq_getElem, after, List.getElem?_drop, Nat.add_sub_cancel' h]

/-- Behind a run stands no character of its class. -/
theorem not_nextIs_add_runAfter (t : Text) (p : Char → Bool) (i : Nat) :
    t.nextIs p (i + t.runAfter p i) = false := by
  have hend := any_getElem?_takeWhile p (t.after i)
  rwa [after, List.getElem?_drop] at hend

theorem runAfter_pos (h : t.nextIs p i = true) : 0 < t.runAfter p i := by
  refine Nat.pos_of_ne_zero fun hzero => ?_
  have hend := not_nextIs_add_runAfter t p i
  rw [hzero, Nat.add_zero, h] at hend
  cases hend

/-- A run ends before a character that is not of its class. -/
theorem runAfter_le_of_not_nextIs (hk : t.nextIs p k = false) (h : i ≤ k) :
    t.runAfter p i ≤ k - i := by
  refine Nat.le_of_not_lt fun hlt => ?_
  rw [nextIs_of_lt_add_runAfter h (by omega)] at hk
  cases hk

/-! ## Backwards -/

theorem getElem?_before (hi : i ≤ t.length) (h : j < i) : (t.before i)[j]? = t[i - 1 - j]? := by
  have hlen : (t.take i).length = i := by rw [List.length_take]; omega
  rw [before, List.getElem?_reverse (by omega), hlen, List.getElem?_take_of_lt (by omega)]

theorem nextIs_of_sub_runBefore_le (hi : i ≤ t.length) (h : i - t.runBefore p i ≤ k) (hk : k < i) :
    t.nextIs p k = true := by
  have hlt : i - 1 - k < ((t.before i).takeWhile p).length := by
    have hle := t.runBefore_le p i
    unfold runBefore at h hle
    omega
  have hrun := List.takeWhile_prefix p (l := t.before i)
  have hmem := List.getElem_mem hlt
  refine nextIs_iff.2 ⟨((t.before i).takeWhile p)[i - 1 - k], ?_, List.all_eq_true.1 List.all_takeWhile _ hmem⟩
  rw [hrun.getElem hlt, ← List.getElem?_eq_getElem, getElem?_before hi (by omega)]
  congr 1
  omega

/-- Before a run, read backwards, stands no character of its class. -/
theorem not_prevIs_sub_runBefore (hi : i ≤ t.length) : t.prevIs p (i - t.runBefore p i) = false := by
  refine eq_false_of_ne_true fun hprev => ?_
  obtain ⟨hpos, hnext⟩ := prevIs_iff.1 hprev
  have hend := any_getElem?_takeWhile p (t.before i)
  have hrun : ((t.before i).takeWhile p).length = t.runBefore p i := rfl
  rw [hrun, getElem?_before hi (by omega), Nat.sub_right_comm] at hend
  rw [nextIs, hend] at hnext
  cases hnext

theorem runBefore_pos (hi : i ≤ t.length) (h : t.prevIs p i = true) : 0 < t.runBefore p i := by
  refine Nat.pos_of_ne_zero fun hzero => ?_
  have hend := not_prevIs_sub_runBefore (p := p) hi
  rw [hzero, Nat.sub_zero, h] at hend
  cases hend

/-- A run, read backwards, ends behind a character that is not of its class. -/
theorem runBefore_le_of_not_nextIs (hi : i ≤ t.length) (hk : t.nextIs p k = false) (h : k < i) :
    t.runBefore p i ≤ i - (k + 1) := by
  refine Nat.le_of_not_lt fun hlt => ?_
  have hin := nextIs_of_sub_runBefore_le (p := p) hi (k := k) (by omega) h
  rw [hk] at hin
  cases hin

/-- A stretch of characters of the class is part of the run before its end. -/
theorem sub_le_runBefore (hi : i ≤ t.length) (h : ∀ k, j ≤ k → k < i → t.nextIs p k = true) :
    i - j ≤ t.runBefore p i := by
  refine Nat.le_of_not_lt fun hlt => ?_
  have hend := not_prevIs_sub_runBefore (p := p) hi
  have hin := prevIs_iff.2 ⟨by omega, h (i - t.runBefore p i - 1) (by omega) (by omega)⟩
  rw [hin] at hend
  cases hend

end VoiceEdit.Text
