import VoiceEdit.Proofs.Prose.Progress
import VoiceEdit.Proofs.Text.Rescan

/-!
# Lines, sentences and links around themselves

The line, the sentence or the link around what was found is looked for from the start of it
and from its last character. As long as these lie where the first search began or where it
has passed, the second finds the same. The exceptions are stretches whose last character is
one that they end before: lines whose last is blank, and sentences of which white space has
been given up as far as the delimiter of the one before. Such a stretch ends a line or a
sentence earlier when it is looked for again.

Results:

* `Line.around_self`, `Line.around_stop_lt`: the lines around lines.
* `Line.exists_of_betweenWhitespace`, `Line.betweenWhitespace_self`: what stands between white
  space.
* `Sentence.around_self`, `Sentence.around_stop_lt`: the sentence around a sentence.
* `Markdown.link?_self`: the link around a link.
-/
namespace VoiceEdit

variable {t : Text} {s : Span} {f : Target}

theorem Span.lastOffset_cases (s : Span) :
    s.start = s.stop ∧ s.lastOffset = s.start ∨ s.start < s.stop ∧ s.lastOffset = s.stop - 1 := by
  have hle := s.start_le_stop
  unfold lastOffset
  by_cases hempty : s.isEmpty = true
  · rw [if_pos hempty]
    exact .inl ⟨isEmpty_iff.1 hempty, rfl⟩
  · rw [if_neg hempty]
    rw [isEmpty_iff] at hempty
    exact .inr ⟨by omega, rfl⟩

/-! ## Lines -/

namespace Line

variable {line again : Span} {withBreak : Bool}

theorem startOf_self (hs : s.stop ≤ t.length) : startOf t (.point (startOf t s)) = startOf t s := by
  have hle := s.start_le_stop
  have hstart : s.start ≤ t.length := by omega
  have hend := t.le_lineEnd hstart
  have hline := t.lineStart_le s.start
  exact Text.lineStart_of_mem hstart (Nat.le_refl _) (Nat.le_trans hline hend)

theorem stopOf_self (hs : s.stop ≤ t.length) : stopOf t (.point (stopOf t s)) = stopOf t s := by
  have hlast : s.lastOffset ≤ t.length := Nat.le_trans s.lastOffset_le hs
  have hend := t.le_lineEnd hlast
  have hline := t.lineStart_le s.lastOffset
  have hsame : t.lineEnd (t.lineEnd s.lastOffset) = t.lineEnd s.lastOffset :=
    Text.lineEnd_of_mem hlast (by omega) (Nat.le_refl _)
  simpa only [stopOf, Span.lastOffset, Span.isEmpty_point, if_true, Span.start_point] using hsame

/-- Lines that are looked for from a place on their last one are the same lines. -/
theorem around_self_of_mem (hs : s.stop ≤ t.length) (h : around t withBreak s = .ok line)
    (hlast : t.lineStart (max s.lastOffset (t.lineStart s.start)) ≤ max line.lastOffset line.start ∧
      max line.lastOffset line.start ≤ t.lineEnd (max s.lastOffset (t.lineStart s.start))) :
    around t withBreak line = .ok line := by
  have hle := s.start_le_stop
  have hoffset := s.lastOffset_le
  have hline := t.lineStart_le s.start
  have hstart : line.start = t.lineStart s.start := (Span.ofBounds_eq_ok_iff.1 h).1
  have hsame : t.lineStart line.start = line.start := by
    rw [hstart]
    exact startOf_self hs
  have hend := Text.lineEnd_of_mem (by omega) hlast.1 hlast.2
  simp only [around, hsame, hend]
  rw [hstart]
  exact h

/-- The lines around lines are those lines, unless these end before a newline that is the
last character of them as well: the last of them is blank then. -/
theorem around_self (hs : s.stop ≤ t.length) (h : around t withBreak s = .ok line)
    (hlast : withBreak = false → t.lastIs (· == '\n') line = false) :
    around t withBreak line = .ok line := by
  refine around_self_of_mem hs h ?_
  have hle := s.start_le_stop
  have hline := t.lineStart_le s.start
  have hoffset := s.lastOffset_cases
  obtain ⟨hstart, hstop, -⟩ := Span.ofBounds_eq_ok_iff.1 h
  generalize hprobe : max s.lastOffset (t.lineStart s.start) = probe at hstop ⊢
  have hprobe_le : probe ≤ t.length := by omega
  have hprobe_start := t.lineStart_le probe
  have hprobe_end := t.le_lineEnd hprobe_le
  have hend := t.lineEnd_le_length probe
  cases withBreak with
  | true =>
    simp only [if_true] at hstop
    rcases line.lastOffset_cases with ⟨hempty, hlast⟩ | ⟨hlt, hlast⟩
    · omega
    · by_cases hin : probe < t.length
      · omega
      · -- Only a cursor at the end of the text is looked for from there.
        have hsame : probe = s.start := by omega
        rw [hsame] at hprobe_start hprobe_end hend hstop ⊢
        omega
  | false =>
    simp only [Bool.false_eq_true, if_false] at hstop
    have hnewline := Text.not_prevIs_lineStart (t := t) hprobe_le
    rcases line.lastOffset_cases with ⟨hempty, hoffset'⟩ | ⟨hlt, hoffset'⟩
    · omega
    · -- The last line is not blank, as its newline is not the last character.
      have hne : t.lineStart probe ≠ line.stop := by
        intro heq
        rw [heq] at hnewline
        have hprev : t.prevIs (· != '\n') line.stop = !t.prevIs (· == '\n') line.stop :=
          Text.prevIs_not (by omega) (by omega)
        have hnot := hlast rfl
        rw [hprev, Bool.not_eq_false'] at hnewline
        rw [Text.lastIs_iff.2 ⟨hlt, (Text.prevIs_iff.1 hnewline).2⟩] at hnot
        cases hnot
      omega

/-- Lines the last of which is blank end earlier when they are looked for again. -/
theorem around_stop_lt (hlast : t.lastIs (· == '\n') line = true)
    (h : around t false line = .ok again) : again.stop < line.stop := by
  obtain ⟨hlt, hnewline⟩ := Text.lastIs_iff.1 hlast
  obtain ⟨-, hstop, -⟩ := Span.ofBounds_eq_ok_iff.1 h
  have hline := t.lineStart_le line.start
  have hprobe : max line.lastOffset (t.lineStart line.start) = line.stop - 1 := by
    have := line.lastOffset_cases
    omega
  simp only [hprobe, Bool.false_eq_true, if_false, Text.lineEnd_eq_self hnewline] at hstop
  omega

/-- What is selected between white space, and the blanks on one side of it that are removed
along with it. -/
theorem exists_of_betweenWhitespace (h : betweenWhitespace t s = .ok f) :
    f.span.start = s.start - t.runBefore (!isLayout ·) s.start ∧
      f.span.stop = s.stop + t.runAfter (!isLayout ·) s.stop ∧
      ∃ r, f.removal = some r ∧
        (r.start = f.span.start ∧ r.stop = f.span.stop + t.runAfter isBlank f.span.stop ∨
          r.start = f.span.start - t.runBefore isBlank f.span.start ∧ r.stop = f.span.stop) := by
  unfold betweenWhitespace at h
  extract_lets start stop trailing at h
  obtain ⟨span, hspan, h⟩ := bind_eq_ok.1 h
  obtain ⟨hstart, hstop, -⟩ := Span.ofBounds_eq_ok_iff.1 hspan
  extract_lets finish at h
  have finishes {removal : Except Span.Error Span} (h : removal >>= finish = .ok f) :
      ∃ r, removal = .ok r ∧ f.span = span ∧ f.removal = some r := by
    obtain ⟨r, hr, h⟩ := bind_eq_ok.1 h
    exact ⟨r, hr, Target.withRemoval_eq_ok_iff.1 h⟩
  by_cases hblank : 0 < trailing
  · rw [if_pos hblank] at h
    obtain ⟨r, hr, rfl, hremoval⟩ := finishes h
    obtain ⟨h₁, h₂, -⟩ := Span.ofBounds_eq_ok_iff.1 hr
    exact ⟨hstart, hstop, r, hremoval, .inl ⟨by rw [h₁, hstart], by rw [h₂, hstop]⟩⟩
  · rw [if_neg hblank] at h
    obtain ⟨r, hr, rfl, hremoval⟩ := finishes h
    obtain ⟨h₁, h₂, -⟩ := Span.ofBounds_eq_ok_iff.1 hr
    exact ⟨hstart, hstop, r, hremoval, .inr ⟨by rw [h₁, hstart], by rw [h₂, hstop]⟩⟩

/-- What stands between white space around itself: neither end moves, and the rest is made of
them. -/
theorem betweenWhitespace_self (hs : s.stop ≤ t.length) (h : betweenWhitespace t s = .ok f) :
    betweenWhitespace t f.span = .ok f := by
  have hle := s.start_le_stop
  obtain ⟨hfirst, hlast, -⟩ := exists_of_betweenWhitespace h
  have hstart := Text.sub_runBefore_of_mem (t := t) (p := (!isLayout ·)) (i := s.start)
    (by omega) (Nat.le_refl _) (Nat.sub_le _ _)
  have hstop := Text.add_runAfter_of_mem (t := t) (p := (!isLayout ·)) (i := s.stop)
    (Nat.le_add_right _ _) (Nat.le_refl _)
  unfold betweenWhitespace
  rw [hfirst, hlast, hstart, hstop]
  exact h

end Line

/-! ## Sentences -/

/-- What a sentence or a clause ends before and does not take along: all delimiters, but not
the terminators that a sentence ends with. -/
def SentenceKind.endsBefore : SentenceKind → Char → Bool
  | .sentence, c => c == '\n'
  | .clause, c => isClauseDelimiter c

namespace Sentence

variable {k : SentenceKind} {start delimiter i : Nat} {again : Target}

theorem isDelimiter_of_endsBefore {c : Char} (h : k.endsBefore c = true) : k.isDelimiter c = true := by
  cases k with
  | sentence =>
    simp only [SentenceKind.endsBefore] at h
    simp only [SentenceKind.isDelimiter, isSentenceDelimiter, h, Bool.or_true]
  | clause => exact h

theorem not_isSentenceTerminator_of_endsBefore {c : Char}
    (h : SentenceKind.sentence.endsBefore c = true) : isSentenceTerminator c = false := by
  rw [eq_of_beq h]
  decide

theorem endsBefore_or_terminator {c : Char} (h : k.isDelimiter c = true) :
    k.endsBefore c = true ∨ k = .sentence ∧ isSentenceTerminator c = true := by
  cases k with
  | sentence =>
    simp only [SentenceKind.isDelimiter, isSentenceDelimiter, Bool.or_eq_true] at h
    exact h.elim (fun hterminator => .inr ⟨rfl, hterminator⟩) .inl
  | clause => exact .inl h

theorem not_isDelimiter_of_isBlank {c : Char} (h : isBlank c = true) : (!k.isDelimiter c) = true := by
  simp only [isBlank, Bool.or_eq_true, beq_iff_eq] at h
  rcases h with rfl | rfl <;> cases k <;> rfl

theorem not_isSentenceTerminator_of_isBlank {c : Char} (h : isBlank c = true) :
    isSentenceTerminator c = false := by
  simp only [isBlank, Bool.or_eq_true, beq_iff_eq] at h
  rcases h with rfl | rfl <;> rfl

theorem isLeading_of_isBlank {c : Char} (h : isBlank c = true) : k.isLeading c = true := by
  simp only [isBlank, Bool.or_eq_true, beq_iff_eq] at h
  rcases h with rfl | rfl <;> cases k <;> decide

/-- A delimiter is looked for no further than where it stands. -/
theorem add_runAfter_of_isDelimiter (h : t.nextIs k.isDelimiter i = true) :
    i + t.runAfter (!k.isDelimiter ·) i = i :=
  Text.add_runAfter_eq_self (Text.not_nextIs_of_disjoint (by simp) h)

/-- A sentence starts where the sentence that holds its start does. -/
theorem startAt_self (hi : i ≤ t.length) : startAt k t (startAt k t i) = startAt k t i := by
  have hlen := startAt_le_length k t hi
  have hback : startAt k t i - t.runBefore (!k.isDelimiter ·) (startAt k t i) =
      i - t.runBefore (!k.isDelimiter ·) i := by
    refine Text.sub_runBefore_eq hlen (Nat.le_add_right _ _) (fun j hj hlt => ?_)
      (Text.not_prevIs_sub_runBefore hi)
    simp only [startAt] at hlt
    refine Text.nextIs_mono (fun c hc => ?_) (Text.nextIs_of_lt_add_runAfter (p := k.isLeading) hj hlt)
    simp only [SentenceKind.isLeading, Bool.and_eq_true] at hc
    exact hc.2
  rw [startAt, hback]
  rfl

theorem stopAt_le_length (h : delimiter ≤ t.length) : stopAt k t start delimiter ≤ t.length := by
  have hrun := t.add_runAfter_le isSentenceTerminator h
  unfold stopAt
  split
  · exact hrun
  · omega

/-- `delimiter` is where a sentence that starts at `start` stops: behind the white space
before it, at a delimiter or at the end of the text. -/
structure Delimits (k : SentenceKind) (t : Text) (start delimiter : Nat) : Prop where
  le : start ≤ delimiter
  le_length : delimiter ≤ t.length
  not_leading : t.nextIs k.isLeading start = false
  at_delimiter : t.nextIs (!k.isDelimiter ·) delimiter = false

theorem delimits_around (hs : s.stop ≤ t.length) : Delimits k t (startAt k t s.start)
    (max s.lastOffset (startAt k t s.start) +
      t.runAfter (!k.isDelimiter ·) (max s.lastOffset (startAt k t s.start))) := by
  have hle := s.start_le_stop
  have hlast := s.lastOffset_le
  have hstart := startAt_le_length k t (i := s.start) (by omega)
  exact ⟨Nat.le_trans (Nat.le_max_right _ _) (Nat.le_add_right _ _),
    t.add_runAfter_le _ (by omega), t.not_nextIs_add_runAfter _ _, t.not_nextIs_add_runAfter _ _⟩

/-- A sentence that is empty has its delimiter right at its start. -/
theorem Delimits.eq_of_stopAt (h : Delimits k t start delimiter)
    (hempty : stopAt k t start delimiter = start) : delimiter = start := by
  have hle := h.le
  unfold stopAt at hempty
  split at hempty
  · rename_i hterminator
    have hrun := Text.runAfter_pos hterminator.2
    omega
  · by_cases hlt : start < delimiter
    · -- All of it would be blank, and white space before a sentence is not in it.
      have hblank := Text.nextIs_of_sub_runBefore_le (p := isBlank) h.le_length (k := start)
        (by omega) hlt
      have hlead := Text.nextIs_mono (fun _ => isLeading_of_isBlank (k := k)) hblank
      rw [h.not_leading] at hlead
      cases hlead
    · omega

/-- Looked for from a last character that is a delimiter but not one it ends before, a
sentence ends behind it: that is a terminator, and none stands behind it. -/
theorem stopAt_of_isDelimiter {stop : Nat} (hdelimiter : t.nextIs k.isDelimiter (stop - 1) = true)
    (hlast : t.nextIs k.endsBefore (stop - 1) = false)
    (hend : k = .sentence → t.nextIs isSentenceTerminator stop = false) :
    stopAt k t start (stop - 1 + t.runAfter (!k.isDelimiter ·) (stop - 1)) = stop := by
  rw [add_runAfter_of_isDelimiter hdelimiter]
  obtain ⟨c, hc, hkind⟩ := Text.nextIs_iff.1 hdelimiter
  rcases endsBefore_or_terminator hkind with hbefore | ⟨rfl, hterminator⟩
  · rw [Text.nextIs_iff.2 ⟨c, hc, hbefore⟩] at hlast
    cases hlast
  · have hlast := Text.nextIs_iff.2 ⟨c, hc, hterminator⟩
    rw [stopAt, if_pos ⟨rfl, hlast⟩]
    refine Text.add_runAfter_eq (Nat.sub_le _ _) (fun j hj hj' => ?_) (hend rfl)
    rwa [show j = stop - 1 by omega]

/-- Looked for from its last character, a sentence that ends with terminators ends where it
did. -/
theorem stopAt_last_of_terminator {stop : Nat}
    (h : t.nextIs isSentenceTerminator delimiter = true)
    (hstop : stopAt .sentence t start delimiter = stop)
    (hlast : t.nextIs SentenceKind.sentence.endsBefore (stop - 1) = false) :
    stopAt .sentence t start
      (stop - 1 + t.runAfter (!SentenceKind.sentence.isDelimiter ·) (stop - 1)) = stop := by
  rw [stopAt, if_pos ⟨rfl, h⟩] at hstop
  have hrun := Text.runAfter_pos h
  have hterminator : t.nextIs isSentenceTerminator (stop - 1) = true :=
    Text.nextIs_of_lt_add_runAfter (i := delimiter) (by omega) (by omega)
  have hdelimiter : t.nextIs SentenceKind.sentence.isDelimiter (stop - 1) = true :=
    Text.nextIs_mono (fun c hc => by simp [SentenceKind.isDelimiter, isSentenceDelimiter, hc])
      hterminator
  refine stopAt_of_isDelimiter hdelimiter hlast fun _ => ?_
  rw [← hstop]
  exact t.not_nextIs_add_runAfter _ _

/-- Looked for from its last character, a sentence ends where it did, unless it ends before
that character. -/
theorem Delimits.stopAt_last {stop : Nat} (h : Delimits k t start delimiter)
    (hstop : stopAt k t start delimiter = stop) (hlt : start < stop)
    (hlast : t.nextIs k.endsBefore (stop - 1) = false) :
    stopAt k t start (stop - 1 + t.runAfter (!k.isDelimiter ·) (stop - 1)) = stop := by
  by_cases hterminator : k = .sentence ∧ t.nextIs isSentenceTerminator delimiter = true
  · obtain ⟨rfl, hat⟩ := hterminator
    exact stopAt_last_of_terminator hat hstop hlast
  have hkeep := hstop
  have hle := h.le
  have hlen : stop ≤ t.length := hstop ▸ stopAt_le_length h.le_length
  rw [stopAt, if_neg hterminator] at hstop
  -- What was given up between the last character and the delimiter is blank.
  have hblank : ∀ j, stop ≤ j → j < delimiter → t.nextIs isBlank j = true := fun j hj hj' =>
    Text.nextIs_of_sub_runBefore_le h.le_length (by omega) hj'
  by_cases hdelimiter : t.nextIs k.isDelimiter (stop - 1) = true
  · refine stopAt_of_isDelimiter hdelimiter hlast fun hk => ?_
    by_cases hin : stop < delimiter
    · exact Text.not_nextIs_of_disjoint (fun _ => not_isSentenceTerminator_of_isBlank)
        (hblank stop (Nat.le_refl _) hin)
    · rw [show stop = delimiter by omega]
      exact eq_false_of_ne_true fun hend => hterminator ⟨hk, hend⟩
  · have hsame : stop - 1 + t.runAfter (!k.isDelimiter ·) (stop - 1) = delimiter := by
      refine Text.add_runAfter_eq (by omega) (fun j hj hj' => ?_) h.at_delimiter
      by_cases hfirst : j = stop - 1
      · rw [hfirst, Text.nextIs_not (by omega), eq_false_of_ne_true hdelimiter]
        rfl
      · exact Text.nextIs_mono (fun _ => not_isDelimiter_of_isBlank) (hblank j (by omega) hj')
    rw [hsame]
    exact hkeep

theorem around_eq (k : SentenceKind) (t : Text) (s : Span) : around k t s =
    Span.ofBounds (startAt k t s.start) (min (stopAt k t (startAt k t s.start)
      (max s.lastOffset (startAt k t s.start) +
        t.runAfter (!k.isDelimiter ·) (max s.lastOffset (startAt k t s.start)))) t.length) >>=
      fun span => removal? t span >>= Target.withRemoval? span := rfl

/-- The sentence around a sentence is that sentence, unless it ends before its last
character. -/
theorem around_self (hs : s.stop ≤ t.length) (h : around k t s = .ok f)
    (hlast : t.lastIs k.endsBefore f.span = false) : around k t f.span = .ok f := by
  have hle := s.start_le_stop
  obtain ⟨hstart, probe, hprobe, hstop⟩ := around_span h
  have hd := delimits_around (k := k) hs
  rw [← hprobe] at hd
  rw [Nat.min_eq_left (stopAt_le_length hd.le_length)] at hstop
  have hsame : startAt k t f.span.start = startAt k t s.start := by
    rw [hstart]
    exact startAt_self (by omega)
  have hagain : stopAt k t (startAt k t s.start) (max f.span.lastOffset (startAt k t s.start) +
      t.runAfter (!k.isDelimiter ·) (max f.span.lastOffset (startAt k t s.start))) =
      f.span.stop := by
    rw [← hstart] at hd hstop ⊢
    rcases f.span.lastOffset_cases with ⟨hempty, hoffset⟩ | ⟨hlt, hoffset⟩
    · have hat := hd.eq_of_stopAt (hstop.symm.trans hempty.symm)
      have hend := hd.at_delimiter
      rw [hat] at hend hstop
      rw [hoffset, Nat.max_self, Text.add_runAfter_eq_self hend]
      exact hstop.symm
    · rw [hoffset, Nat.max_eq_left (by omega)]
      refine hd.stopAt_last hstop.symm hlt (eq_false_of_ne_true fun hbefore => ?_)
      rw [Text.lastIs_iff.2 ⟨hlt, hbefore⟩] at hlast
      cases hlast
  rw [around_eq] at h ⊢
  rw [hsame, hagain, Nat.min_eq_left (hstop ▸ stopAt_le_length hd.le_length)]
  rwa [← hprobe, Nat.min_eq_left (stopAt_le_length hd.le_length), ← hstop] at h

/-- A sentence that ends before its last character ends earlier when it is looked for
again. -/
theorem around_stop_lt {s : Span} (hlast : t.lastIs k.endsBefore s = true)
    (hs : startAt k t s.start ≤ s.start) (h : around k t s = .ok again) :
    again.span.stop < s.stop := by
  obtain ⟨hlt, hbefore⟩ := Text.lastIs_iff.1 hlast
  obtain ⟨-, probe, hprobe, hstop⟩ := around_span h
  have hprobe : probe = s.stop - 1 := by
    have := s.lastOffset_cases
    omega
  have hdelimiter := Text.nextIs_mono (fun _ => isDelimiter_of_endsBefore) hbefore
  have hnone : ¬(k = .sentence ∧ t.nextIs isSentenceTerminator (s.stop - 1) = true) := by
    rintro ⟨rfl, hterminator⟩
    rw [Text.not_nextIs_of_disjoint (fun _ => not_isSentenceTerminator_of_endsBefore) hbefore]
      at hterminator
    cases hterminator
  rw [hprobe, add_runAfter_of_isDelimiter hdelimiter, stopAt, if_neg hnone] at hstop
  omega

end Sentence

/-! ## Links -/

namespace Markdown

variable {skip pos : Nat} {cs : List Char} {o : Nat × Nat} {link : Span}

theorem linkLength?_pos {n : Nat} (h : linkLength? cs = some n) : 0 < n := by
  unfold linkLength? at h
  split at h
  · obtain ⟨label, -, h⟩ := Option.bind_eq_some_iff.1 h
    split at h
    · obtain ⟨n, -, rfl⟩ := Option.map_eq_some_iff.1 h
      omega
    · cases h
  · cases h

/-- A link is not empty, and starts behind the characters that belong to one before it. -/
theorem mem_linksFrom_start (h : o ∈ linksFrom skip pos cs) : pos + skip ≤ o.1 ∧ o.1 < o.2 := by
  induction cs generalizing skip pos with
  | nil => cases skip <;> cases h
  | cons c rest ih =>
    cases skip with
    | succ skip =>
      have := ih h
      omega
    | zero =>
      rw [linksFrom] at h
      cases hlink : linkLength? (c :: rest) with
      | none =>
        rw [hlink] at h
        have := ih h
        omega
      | some n =>
        rw [hlink] at h
        have hpos := linkLength?_pos hlink
        rcases List.mem_cons.1 h with rfl | hmem
        · exact ⟨Nat.le_refl _, Nat.lt_add_of_pos_right hpos⟩
        · have := ih hmem
          omega

/-- No link starts before the one to its left has stopped. -/
theorem pairwise_linksFrom (skip pos : Nat) (cs : List Char) :
    (linksFrom skip pos cs).Pairwise fun a b => a.2 ≤ b.1 := by
  induction cs generalizing skip pos with
  | nil => cases skip <;> exact .nil
  | cons c rest ih =>
    cases skip with
    | succ skip => exact ih skip (pos + 1)
    | zero =>
      rw [linksFrom]
      cases hlink : linkLength? (c :: rest) with
      | none => exact ih 0 (pos + 1)
      | some n =>
        have hpos := linkLength?_pos hlink
        refine .cons (fun o ho => ?_) (ih (n - 1) (pos + 1))
        have := mem_linksFrom_start ho
        simp only
        omega

/-- What the links of a line are: spans in order, none of them empty, on that line. -/
theorem linksOnLine_spec {links : List Span} {i : Nat} (hi : i ≤ t.length)
    (h : linksOnLine t i = .ok links) : links.Pairwise (fun a b => a.stop ≤ b.start) ∧
      ∀ link ∈ links, link.start < link.stop ∧ t.lineStart i ≤ link.start ∧
        link.stop ≤ t.lineEnd i := by
  refine ⟨pairwise_of_mapM (fun a a' b b' hb hb' hle => ?_) (pairwise_linksFrom _ _ _) h,
    fun link hlink => ?_⟩
  · have := Span.ofBounds_eq_ok_iff.1 hb
    have := Span.ofBounds_eq_ok_iff.1 hb'
    omega
  · obtain ⟨o, ho, hspan⟩ := exists_of_mapM h hlink
    obtain ⟨hstart, hstop, -⟩ := Span.ofBounds_eq_ok_iff.1 hspan
    have hne := (mem_linksFrom_start ho).2
    obtain ⟨hfirst, -, hlast⟩ := mem_linksFrom_bounds ho
    rw [List.length_take, t.length_after] at hlast
    have hline := t.lineStart_le i
    have hend := t.le_lineEnd hi
    omega

/-- The link around a link is that link. It lies on the line it was looked for on, and no
link before it reaches as far. -/
theorem link?_self (hs : s.stop ≤ t.length) (h : link? t s = .ok (some link)) :
    link? t link = .ok (some link) := by
  have hle := s.start_le_stop
  obtain ⟨links, hlinks, h⟩ := bind_eq_ok.1 h
  have hmem : link ∈ links := by
    rcases Option.or_eq_some_iff.1 (Except.ok.inj h) with hfind | ⟨-, hhead⟩
    · exact List.mem_of_find?_eq_some hfind
    · exact List.mem_of_head? hhead
  obtain ⟨hpairs, hbounds⟩ := linksOnLine_spec (by omega) hlinks
  obtain ⟨hne, hstart, hstop⟩ := hbounds link hmem
  have hsame : linksOnLine t link.start = .ok links := by
    rw [linksOnLine, Text.lineStart_of_mem (i := s.start) (by omega) hstart (by omega),
      Text.lineEnd_of_mem (i := s.start) (by omega) hstart (by omega)]
    exact hlinks
  have hfind : links.find? (·.contains link) = some link := by
    obtain ⟨before, behind, rfl⟩ := List.append_of_mem hmem
    refine List.find?_eq_some_iff_append.2
      ⟨Span.contains_iff.2 ⟨Nat.le_refl _, Nat.le_refl _⟩, before, behind, rfl, fun other hother => ?_⟩
    have hbefore := (List.pairwise_append.1 hpairs).2.2 other hother link List.mem_cons_self
    rw [Bool.not_eq_true', ← Bool.not_eq_true, Span.contains_iff]
    omega
  rw [link?, hsame]
  show Except.ok ((links.find? (·.contains link)).or links.head?) = _
  rw [hfind]
  rfl

end Markdown

end VoiceEdit
