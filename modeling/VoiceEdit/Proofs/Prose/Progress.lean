import VoiceEdit.Proofs.Text.Runs
import VoiceEdit.Proofs.Prose.Bounds

/-!
# Steps through sentences go on

A step to another sentence passes over what lies between sentences and comes to a
character that does not. The sentence that holds such a character starts at it or before
it and ends behind it, however far its start is moved over white space and its end is taken
back over blanks.

Results:

* `startAt_le`, `lt_stopAt`: a sentence holds the character it was looked for at.
* `next_stop`, `previous_start`: so a step ends behind, or starts before, where it began.
-/
namespace VoiceEdit.Sentence

variable {t : Text} {k : SentenceKind} {s : Span} {f : Target} {i : Nat}

/-! ## The classes of a sentence -/

theorem isBetween_of_isLeading {c : Char} (h : k.isLeading c = true) : k.isBetween c = true := by
  simp only [SentenceKind.isLeading, Bool.and_eq_true] at h
  simp only [SentenceKind.isBetween, h.1, Bool.true_or]

theorem isBetween_of_isBlank {c : Char} (h : isBlank c = true) : k.isBetween c = true := by
  simp only [SentenceKind.isBetween, isWhitespace_of_isBlank h, Bool.true_or]

theorem isBetween_of_isDelimiter {c : Char} (h : k.isDelimiter c = true) : k.isBetween c = true := by
  simp only [SentenceKind.isBetween, h, Bool.or_true]

/-- What does not lie between sentences is in no class that does. -/
theorem not_nextIs_of_between {p : Char → Bool} (hp : ∀ c, p c = true → k.isBetween c = true)
    (h : t.nextIs k.isBetween i = false) : t.nextIs p i = false := by
  refine eq_false_of_ne_true fun hnext => ?_
  rw [Text.nextIs_mono hp hnext] at h
  cases h

/-! ## The sentence at a character -/

/-- A sentence starts at a character that does not lie between sentences, or before it. -/
theorem startAt_le (h : t.nextIs k.isBetween i = false) : startAt k t i ≤ i := by
  have hstart : i - t.runBefore (!k.isDelimiter ·) i ≤ i := Nat.sub_le _ _
  have hlead : t.nextIs k.isLeading i = false :=
    not_nextIs_of_between (fun _ => isBetween_of_isLeading) h
  have hrun := Text.runAfter_le_of_not_nextIs hlead hstart
  simp only [startAt]
  omega

/-- A sentence ends behind a character that does not lie between sentences. -/
theorem lt_stopAt {start delimiter : Nat} (h : t.nextIs k.isBetween i = false) (hi : i < delimiter)
    (hd : delimiter ≤ t.length) (hstart : start ≤ i) : i < stopAt k t start delimiter := by
  have hblank : t.nextIs isBlank i = false :=
    not_nextIs_of_between (fun _ => isBetween_of_isBlank) h
  have hrun := Text.runBefore_le_of_not_nextIs hd hblank hi
  unfold stopAt
  split
  · omega
  · omega

theorem around_span (h : around k t s = .ok f) :
    f.span.start = startAt k t s.start ∧ ∃ probe, probe = max s.lastOffset (startAt k t s.start) ∧
      f.span.stop = min (stopAt k t (startAt k t s.start)
        (probe + t.runAfter (!k.isDelimiter ·) probe)) t.length := by
  obtain ⟨span, hspan, h⟩ := bind_eq_ok.1 h
  obtain ⟨removal, -, h⟩ := bind_eq_ok.1 h
  obtain ⟨hstart, hstop, -⟩ := Span.ofBounds_eq_ok_iff.1 hspan
  rw [(Target.withRemoval?_eq_ok_iff.1 h).1]
  exact ⟨hstart, _, rfl, hstop⟩

theorem around_removal (h : around k t s = .ok f) : removal? t f.span = .ok f.removal := by
  obtain ⟨span, -, h⟩ := bind_eq_ok.1 h
  obtain ⟨removal, hremoval, h⟩ := bind_eq_ok.1 h
  obtain ⟨hspan, hsame⟩ := Target.withRemoval?_eq_ok_iff.1 h
  rw [hspan, hsame]
  exact hremoval

/-- The sentence around a character that does not lie between sentences holds it. -/
theorem around_point_bounds (hi : i < t.length) (hchar : t.nextIs k.isBetween i = false)
    (h : around k t (.point i) = .ok f) : f.span.start ≤ i ∧ i < f.span.stop := by
  obtain ⟨hstart, probe, hprobe, hstop⟩ := around_span h
  have hle := startAt_le hchar
  simp only [Span.start_point, Span.lastOffset, Span.isEmpty_point] at hstart hprobe hstop
  have hprobe : probe = i := by
    rw [hprobe]
    exact Nat.max_eq_left hle
  rw [hprobe] at hstop
  have hrun : 0 < t.runAfter (!k.isDelimiter ·) i := by
    refine Text.runAfter_pos ?_
    rw [Text.nextIs_not hi, not_nextIs_of_between (fun _ => isBetween_of_isDelimiter) hchar]
    rfl
  have hlen := t.add_runAfter_le (!k.isDelimiter ·) (Nat.le_of_lt hi)
  have := lt_stopAt hchar (Nat.lt_add_of_pos_right hrun) hlen hle
  omega

/-! ## Steps -/

/-- The next sentence is the one at a character that does not lie between sentences. -/
theorem exists_of_next? (h : next? k t s = .ok (some f)) : ∃ pos, s.stop ≤ pos ∧ pos < t.length ∧
    t.nextIs k.isBetween pos = false ∧ around k t (.point pos) = .ok f := by
  unfold next? at h
  extract_lets pos pos₁ at h
  have h₁ : s.stop ≤ pos := by
    unfold pos
    split
    · exact Nat.le_refl _
    · exact Nat.le_add_right _ _
  have h₂ : pos ≤ pos₁ := Nat.le_add_right _ _
  by_cases hend : t.length ≤ pos₁
  · rw [if_pos hend] at h
    cases h
  · rw [if_neg hend] at h
    obtain ⟨target, htarget, h⟩ := bind_eq_ok.1 h
    cases h
    exact ⟨pos₁, by omega, by omega, t.not_nextIs_add_runAfter _ _, htarget⟩

/-- The next sentence ends behind the span. -/
theorem next_stop (h : next? k t s = .ok (some f)) : s.stop < f.span.stop := by
  obtain ⟨pos, hpos, hlen, hchar, h⟩ := exists_of_next? h
  have := (around_point_bounds hlen hchar h).2
  omega

/-- The start of a sentence may lie behind the place it was looked for at, over white space
only; so what lies between sentences before it reaches back to that place. -/
theorem startAt_sub_runBefore_le (hi : i ≤ t.length) :
    startAt k t i - t.runBefore k.isBetween (startAt k t i) ≤ i := by
  have hlen := startAt_le_length k t hi
  simp only [startAt] at hlen ⊢
  generalize hstart : i - t.runBefore (!k.isDelimiter ·) i = start at hlen ⊢
  have hbetween : ∀ j, start ≤ j → j < start + t.runAfter k.isLeading start →
      t.nextIs k.isBetween j = true := by
    intro j hj hlt
    exact Text.nextIs_mono (fun _ => isBetween_of_isLeading) (Text.nextIs_of_lt_add_runAfter hj hlt)
  have hrun := Text.sub_le_runBefore hlen hbetween
  omega

/-- The previous sentence is the one at a character that does not lie between sentences. -/
theorem exists_of_previous? (hs : s.start ≤ t.length) (h : previous? k t s = .ok (some f)) :
    ∃ pos, pos < s.start ∧ pos < t.length ∧ t.nextIs k.isBetween pos = false ∧
      around k t (.point pos) = .ok f := by
  unfold previous? at h
  extract_lets pos pos₁ at h
  have h₁ : pos₁ ≤ s.start := startAt_sub_runBefore_le hs
  have h₂ : pos ≤ t.length := startAt_le_length k t hs
  by_cases hfirst : pos₁ = 0
  · rw [if_pos hfirst] at h
    cases h
  · rw [if_neg hfirst] at h
    obtain ⟨target, htarget, h⟩ := bind_eq_ok.1 h
    cases h
    refine ⟨pos₁ - 1, by omega, by omega, eq_false_of_ne_true fun hnext => ?_, htarget⟩
    have hprev := Text.not_prevIs_sub_runBefore (p := k.isBetween) h₂
    rw [Text.prevIs_iff.2 ⟨by omega, hnext⟩] at hprev
    cases hprev

/-- The previous sentence starts before the span. -/
theorem previous_start (hs : s.start ≤ t.length) (h : previous? k t s = .ok (some f)) :
    f.span.start < s.start := by
  obtain ⟨pos, hpos, hlen, hchar, h⟩ := exists_of_previous? hs h
  have := (around_point_bounds hlen hchar h).1
  omega

end VoiceEdit.Sentence
