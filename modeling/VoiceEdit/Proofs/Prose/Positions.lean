import VoiceEdit.Proofs.Prose.Rest

/-!
# Sentences from position to position

A sentence lies between two delimiters. It is read from a place back to the delimiter before it and
forwards to the one behind, so from every place up to that one the reading comes to the same two. A
sentence takes a run of terminators along, and from behind the first of these the reading comes to
the terminator before the place: only the rest of the run is found.

Results:

* `not_isDelimiter_of_mem`: between its two ends a reading passes no delimiter.
* `around_eq_of_mem`: from place to place up to the delimiter that ends a sentence.
* `stop_cases`, `not_endsBefore`: where what is found from a place stops, and its last character.
* `delimiterAt_lt_iff`, `around_terminators`: the places among the terminators, and from there.
-/
namespace VoiceEdit.Sentence

variable {k : SentenceKind} {t : Text} {i j : Nat} {f : Target}

/-- The place behind the delimiter before `i`, or the start of the text where there is none. -/
def behindDelimiter (k : SentenceKind) (t : Text) (i : Nat) : Nat :=
  i - t.runBefore (!k.isDelimiter ·) i

/-- Where the sentence from `i` has its delimiter: the first from `i` and from its start on, or the
end of the text where there is none. -/
def delimiterAt (k : SentenceKind) (t : Text) (i : Nat) : Nat :=
  max i (startAt k t i) + t.runAfter (!k.isDelimiter ·) (max i (startAt k t i))

theorem startAt_eq (k : SentenceKind) (t : Text) (i : Nat) :
    startAt k t i = behindDelimiter k t i + t.runAfter k.isLeading (behindDelimiter k t i) := rfl

theorem behindDelimiter_le (k : SentenceKind) (t : Text) (i : Nat) :
    behindDelimiter k t i ≤ i ∧ behindDelimiter k t i ≤ startAt k t i :=
  ⟨Nat.sub_le _ _, Nat.le_add_right _ _⟩

theorem around_point (k : SentenceKind) (t : Text) (i : Nat) : around k t (.point i) =
    Span.ofBounds (startAt k t i)
      (min (stopAt k t (startAt k t i) (delimiterAt k t i)) t.length) >>=
      fun span => removal? t span >>= Target.withRemoval? span := by
  rw [around_eq]
  simp only [Span.lastOffset, Span.isEmpty_point, if_true]
  rfl

theorem delimits_point (k : SentenceKind) (hi : i ≤ t.length) :
    Delimits k t (startAt k t i) (delimiterAt k t i) := by
  have h : Delimits k t (startAt k t (Span.point i).start) _ := delimits_around hi
  simp only [Span.lastOffset, Span.isEmpty_point, if_true] at h
  exact h

/-- Where what is found from a place starts and stops. -/
theorem around_point_span (hi : i ≤ t.length) (h : around k t (.point i) = .ok f) :
    f.span.start = startAt k t i ∧ f.span.stop = stopAt k t (startAt k t i) (delimiterAt k t i) := by
  rw [around_point] at h
  obtain ⟨span, hspan, h⟩ := bind_eq_ok.1 h
  obtain ⟨removal, -, h⟩ := bind_eq_ok.1 h
  obtain ⟨hstart, hstop, -⟩ := Span.ofBounds_eq_ok_iff.1 hspan
  rw [Nat.min_eq_left (stopAt_le_length (delimits_point k hi).le_length)] at hstop
  rw [(Target.withRemoval?_eq_ok_iff.1 h).1]
  exact ⟨hstart, hstop⟩

/-! ## Up to the delimiter -/

/-- Between its two ends a reading passes no delimiter. -/
theorem not_isDelimiter_of_mem (hi : i ≤ t.length) (hj : behindDelimiter k t i ≤ j)
    (hlt : j < delimiterAt k t i) : t.nextIs (!k.isDelimiter ·) j = true := by
  by_cases hbefore : j < i
  · exact Text.nextIs_of_sub_runBefore_le hi hj hbefore
  by_cases hleading : j < startAt k t i
  · refine Text.nextIs_mono (fun c hc => ?_)
      (Text.nextIs_of_lt_add_runAfter (p := k.isLeading) hj hleading)
    simp only [SentenceKind.isLeading, Bool.and_eq_true] at hc
    exact hc.2
  · exact Text.nextIs_of_lt_add_runAfter (by omega) hlt

theorem behindDelimiter_of_mem (hi : i ≤ t.length) (hj : behindDelimiter k t i ≤ j)
    (hle : j ≤ delimiterAt k t i) : behindDelimiter k t j = behindDelimiter k t i := by
  have hlen := (delimits_point k hi).le_length
  refine Text.sub_runBefore_eq (by omega) hj (fun n hn hlt => ?_) (Text.not_prevIs_sub_runBefore hi)
  exact not_isDelimiter_of_mem hi hn (by omega)

theorem startAt_of_mem (hi : i ≤ t.length) (hj : behindDelimiter k t i ≤ j)
    (hle : j ≤ delimiterAt k t i) : startAt k t j = startAt k t i := by
  rw [startAt_eq, behindDelimiter_of_mem hi hj hle, ← startAt_eq]

theorem delimiterAt_of_mem (hi : i ≤ t.length) (hj : behindDelimiter k t i ≤ j)
    (hle : j ≤ delimiterAt k t i) : delimiterAt k t j = delimiterAt k t i := by
  have hd := delimits_point k hi
  have hstart := hd.le
  rw [delimiterAt, startAt_of_mem hi hj hle]
  refine Text.add_runAfter_eq (Nat.max_le.2 ⟨hle, hstart⟩) (fun n hn hlt => ?_) hd.at_delimiter
  exact not_isDelimiter_of_mem hi (by omega) hlt

/-- From every place up to its delimiter the same sentence is found. -/
theorem around_eq_of_mem (hi : i ≤ t.length) (hj : behindDelimiter k t i ≤ j)
    (hle : j ≤ delimiterAt k t i) : around k t (.point j) = around k t (.point i) := by
  rw [around_point, around_point, startAt_of_mem hi hj hle, delimiterAt_of_mem hi hj hle]

/-! ## Behind the delimiter -/

/-- What is found from a place stops at its delimiter or before, or it is a sentence that ends with the
terminators from there on. -/
theorem stop_cases (hi : i ≤ t.length) (h : around k t (.point i) = .ok f) :
    f.span.stop ≤ delimiterAt k t i ∨ k = .sentence ∧
      f.span.stop = delimiterAt k t i + t.runAfter isSentenceTerminator (delimiterAt k t i) := by
  have hstop := (around_point_span hi h).2
  unfold stopAt at hstop
  by_cases hterminator : k = .sentence ∧ t.nextIs isSentenceTerminator (delimiterAt k t i) = true
  · rw [if_pos hterminator] at hstop
    exact .inr ⟨hterminator.1, hstop⟩
  · rw [if_neg hterminator] at hstop
    exact .inl (by omega)

theorem terminator_of_mem (hi : i ≤ t.length) (h : around k t (.point i) = .ok f)
    (hj : delimiterAt k t i ≤ j) (hlt : j < f.span.stop) :
    k = .sentence ∧ t.nextIs isSentenceTerminator j = true := by
  rcases stop_cases hi h with hle | ⟨hk, hstop⟩
  · omega
  · exact ⟨hk, Text.nextIs_of_lt_add_runAfter hj (by omega)⟩

theorem isDelimiter_of_isSentenceTerminator {c : Char} (h : isSentenceTerminator c = true) :
    k.isDelimiter c = true := by
  cases k with
  | sentence => simp only [SentenceKind.isDelimiter, isSentenceDelimiter, h, Bool.true_or]
  | clause =>
    simp only [SentenceKind.isDelimiter, isClauseDelimiter, isSentenceDelimiter, h, Bool.true_or]

/-- What is found from a place does not end before its last character. -/
theorem not_endsBefore (hi : i ≤ t.length) (h : around k t (.point i) = .ok f) :
    t.lastIs k.endsBefore f.span = false := by
  have hstart := (around_point_span hi h).1
  have hraw := (behindDelimiter_le k t i).2
  refine eq_false_of_ne_true fun hlast => ?_
  obtain ⟨hlt, hbefore⟩ := Text.lastIs_iff.1 hlast
  by_cases hin : f.span.stop - 1 < delimiterAt k t i
  · have hnot := not_isDelimiter_of_mem hi (by omega) hin
    have hdelimiter := Text.nextIs_mono (fun _ => isDelimiter_of_endsBefore) hbefore
    rw [Text.not_nextIs_of_disjoint (by simp) hdelimiter] at hnot
    cases hnot
  · obtain ⟨rfl, hterminator⟩ := terminator_of_mem hi h (Nat.le_of_not_lt hin) (by omega)
    rw [Text.not_nextIs_of_disjoint (fun _ => not_isSentenceTerminator_of_endsBefore) hbefore]
      at hterminator
    cases hterminator

/-- A place in a sentence lies behind a delimiter that the sentence holds just if it lies among the
terminators, behind the first. -/
theorem delimiterAt_lt_iff (hi : i ≤ t.length) (h : around k t (.point i) = .ok f)
    (hj : f.span.start ≤ j) (hlt : j < f.span.stop) :
    delimiterAt k t i < j ↔ f.span.start < j ∧ t.prevIs k.isDelimiter j = true := by
  have hstart := (around_point_span hi h).1
  have hraw := (behindDelimiter_le k t i).2
  have hd := (delimits_point k hi).le
  constructor
  · intro hbehind
    obtain ⟨-, hlast⟩ := terminator_of_mem (j := j - 1) hi h (by omega) (by omega)
    exact ⟨by omega, Text.prevIs_iff.2
      ⟨by omega, Text.nextIs_mono (fun _ => isDelimiter_of_isSentenceTerminator) hlast⟩⟩
  · rintro ⟨hin, hprev⟩
    refine Nat.lt_of_not_le fun hle => ?_
    have hnot := not_isDelimiter_of_mem (k := k) (j := j - 1) hi (by omega) (by omega)
    rw [Text.not_nextIs_of_disjoint (by simp) (Text.prevIs_iff.1 hprev).2] at hnot
    cases hnot

/-- From a terminator behind a delimiter the reading comes no further back and finds the terminators
from there on. -/
theorem startAt_of_terminator (hj : t.nextIs isSentenceTerminator j = true)
    (hprev : t.prevIs k.isDelimiter j = true) : startAt k t j = j ∧ delimiterAt k t j = j := by
  have hlen := Text.lt_length_of_nextIs hj
  have hdelimiter := Text.nextIs_mono (fun _ => isDelimiter_of_isSentenceTerminator (k := k)) hj
  have hback : behindDelimiter k t j = j := by
    refine Text.sub_runBefore_eq (Nat.le_of_lt hlen) (Nat.le_refl _) (fun n hn hlt => by omega) ?_
    rw [Text.prevIs_not (Text.prevIs_iff.1 hprev).1 (Nat.le_of_lt hlen), hprev]
    rfl
  have hstart : startAt k t j = j := by
    rw [startAt_eq, hback]
    refine Text.add_runAfter_eq_self (Text.not_nextIs_of_disjoint (fun c hc => ?_) hdelimiter)
    simp only [SentenceKind.isLeading, hc, Bool.not_true, Bool.and_false]
  refine ⟨hstart, ?_⟩
  rw [delimiterAt, hstart, Nat.max_self]
  exact add_runAfter_of_isDelimiter hdelimiter

/-- No space stands right behind a terminator. -/
theorem runBefore_space_of_terminator (hpos : 0 < j) (hj : j ≤ t.length)
    (hlast : t.nextIs isSentenceTerminator (j - 1) = true) : t.runBefore (· == ' ') j = 0 := by
  have hnot : t.nextIs (· == ' ') (j - 1) = false := by
    refine Text.not_nextIs_of_disjoint (fun c hc => eq_false_of_ne_true fun heq => ?_) hlast
    rw [eq_of_beq heq] at hc
    cases hc
  have hrun := Text.runBefore_le_of_not_nextIs hj hnot (show j - 1 < j by omega)
  omega

/-- The back of a sentence is removed as far as the sentence is, if no space stands before it. -/
theorem exists_removal? {s : Span} {o : Option Span} (back : Span) (h : removal? t s = .ok o)
    (hstop : back.stop = s.stop) (hspace : t.runBefore (· == ' ') back.start = 0) :
    ∃ o', removal? t back = .ok o' ∧
      (∀ r ∈ o', r.contains back = true) ∧ (o'.getD back).start = back.start ∧
      (o'.getD back).stop = (o.getD s).stop := by
  have hle := back.start_le_stop
  unfold removal? at h ⊢
  simp only [hspace, hstop, Nat.zero_min, Nat.lt_irrefl, if_false] at h ⊢
  by_cases htrailing : 0 < min (t.runAfter (· == ' ') s.stop) 2
  · rw [if_pos htrailing] at h ⊢
    obtain ⟨r, hr, rfl⟩ := map_eq_ok.1 h
    obtain ⟨-, hrstop, hlimit⟩ := Span.ofBounds_eq_ok_iff.1 hr
    refine ⟨some ⟨back.start, s.stop + min (t.runAfter (· == ' ') s.stop) 2, by omega,
      fun _ => hlimit⟩, ?_, ?_, rfl, hrstop.symm⟩
    · exact map_eq_ok.2 ⟨_, Span.ofBounds_eq_ok (by omega) hlimit, rfl⟩
    · rintro _ ⟨⟩
      exact Span.contains_iff.2 ⟨Nat.le_refl _, by simp only; omega⟩
  · rw [if_neg htrailing] at h ⊢
    refine ⟨none, rfl, nofun, rfl, ?_⟩
    rw [Option.getD_none, hstop]
    by_cases hleading : 0 < min (t.runBefore (· == ' ') s.start) 2
    · rw [if_pos hleading] at h
      obtain ⟨r, hr, rfl⟩ := map_eq_ok.1 h
      exact (Span.ofBounds_eq_ok_iff.1 hr).2.1.symm
    · rw [if_neg hleading] at h
      cases h
      rfl

/-- From behind a terminator of a sentence, what is found and what is removed end where they do for
the sentence, and start right there. -/
theorem around_terminators (hi : i ≤ t.length) (h : around k t (.point i) = .ok f)
    (hj : delimiterAt k t i < j) (hlt : j < f.span.stop) :
    k = .sentence ∧ ∃ again, around k t (.point j) = .ok again ∧ again.span.start = j ∧
      again.span.stop = f.span.stop ∧ again.removed.start = j ∧
      again.removed.stop = f.removed.stop := by
  have hstart := (around_point_span hi h).1
  have hd := delimits_point k hi
  have hle := hd.le
  obtain ⟨hk, hat⟩ := terminator_of_mem hi h (Nat.le_of_lt hj) hlt
  obtain ⟨-, hlast⟩ := terminator_of_mem (j := j - 1) hi h (by omega) (by omega)
  refine ⟨hk, ?_⟩
  have hprev : t.prevIs k.isDelimiter j = true :=
    Text.prevIs_iff.2 ⟨by omega, Text.nextIs_mono (fun _ => isDelimiter_of_isSentenceTerminator) hlast⟩
  obtain ⟨hjstart, hjdelimiter⟩ := startAt_of_terminator hat hprev
  obtain ⟨hstop, hlen⟩ : stopAt k t j j = f.span.stop ∧ f.span.stop ≤ t.length := by
    obtain ⟨-, hstop⟩ := (stop_cases hi h).resolve_left (by omega)
    rw [stopAt, if_pos ⟨hk, hat⟩, hstop]
    exact ⟨Text.add_runAfter_of_mem (by omega) (by omega), t.add_runAfter_le _ hd.le_length⟩
  have hspace := runBefore_space_of_terminator (show 0 < j by omega) (by omega) hlast
  have hlimit := f.span.stop_le_limit (by omega)
  let back : Span := ⟨j, f.span.stop, Nat.le_of_lt hlt, fun _ => hlimit⟩
  obtain ⟨o, ho, hcontains, hostart, hostop⟩ :=
    exists_removal? back (around_removal h) rfl hspace
  refine ⟨⟨back, o, hcontains⟩, ?_, rfl, rfl, hostart, hostop⟩
  rw [around_point, hjstart, hjdelimiter, hstop, Nat.min_eq_left hlen]
  refine bind_eq_ok.2 ⟨back, Span.ofBounds_eq_ok_iff.2 ⟨rfl, rfl, hlimit⟩, bind_eq_ok.2 ⟨o, ho, ?_⟩⟩
  exact Target.withRemoval?_eq_ok_iff.2 ⟨rfl, rfl⟩

end VoiceEdit.Sentence
