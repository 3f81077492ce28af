import VoiceEdit.Proofs.Prose.Positions

/-!
# The sentences on either side

A step forwards goes on from where a sentence is over, past white space and delimiters, and what it
comes to begins the next sentence: read back from there, the delimiter that was passed stops the
reading and the white space behind it is given up again. A step backwards goes the same way from the
start of a sentence and comes to the last character of the text of the one before. That sentence ends
with its terminators, and a place between two terminators is read as the start of a sentence, so from
there the sentence before is the one that the place lies in.

Results:

* `startAt_eq_self`, `next?_cases`: what a step forwards comes to.
* `previous?_cases`: what a step backwards comes to.
* `before_or_splits`, `Splits.across`: on which side of the start the sentence before ends.
-/
namespace VoiceEdit.Sentence

variable {k : SentenceKind} {t : Text} {s : Span} {f : Target} {c i j p q : Nat}

/-! ## What a sentence is made of -/

/-- A character of a sentence is no delimiter. -/
theorem nextIs_not_isDelimiter (hlt : p < t.length) (hp : t.nextIs k.isBetween p = false) :
    t.nextIs (!k.isDelimiter ·) p = true := by
  rw [Text.nextIs_not hlt, not_nextIs_of_between (fun _ => isBetween_of_isDelimiter) hp]
  rfl

theorem ne_of_isDelimiter (hp : t.nextIs k.isBetween p = false)
    (hd : t.nextIs k.isDelimiter i = true) : p ≠ i := by
  rintro rfl
  rw [Text.nextIs_mono (fun _ => isBetween_of_isDelimiter) hd] at hp
  cases hp

/-! ## Forwards -/

/-- `q` is where what holds the end of `s` is over: behind `s`, if its last character is a delimiter,
and else at the first delimiter from its end on, or at the end of the text where there is none. -/
inductive IsOver (k : SentenceKind) (t : Text) (s : Span) : Nat → Prop
  | behind (h : t.lastIs k.isDelimiter s = true) : IsOver k t s s.stop
  | before {q : Nat} (h : t.lastIs k.isDelimiter s = false) (le : s.stop ≤ q)
      (passes : ∀ i, s.stop ≤ i → i < q → t.nextIs k.isDelimiter i = false)
      (ends : q = t.length ∨ t.nextIs k.isDelimiter q = true) : IsOver k t s q

/-- `p` is the first character from `q` on that is neither white space nor a delimiter. -/
structure Begins (k : SentenceKind) (t : Text) (q p : Nat) : Prop where
  le : q ≤ p
  lt_length : p < t.length
  passes : ∀ i, q ≤ i → i < p → t.nextIs k.isBetween i = true
  content : t.nextIs k.isBetween p = false

theorem Begins.unique (h : Begins k t q p) (h' : Begins k t q i) : p = i := by
  have only {p i : Nat} (h : Begins k t q p) (h' : Begins k t q i) : ¬p < i := by
    intro hlt
    have hin := h'.passes p h.le hlt
    rw [h.content] at hin
    cases hin
  exact Nat.le_antisymm (Nat.le_of_not_lt (only h' h)) (Nat.le_of_not_lt (only h h'))

theorem exists_isOver (hs : s.stop ≤ t.length) : ∃ q, IsOver k t s q := by
  by_cases h : t.lastIs k.isDelimiter s = true
  · exact ⟨s.stop, .behind h⟩
  · refine ⟨s.stop + t.runAfter (!k.isDelimiter ·) s.stop, .before (eq_false_of_ne_true h)
      (Nat.le_add_right _ _) (fun i hi hlt => ?_) ?_⟩
    · exact Text.not_nextIs_of_disjoint (by simp) (Text.nextIs_of_lt_add_runAfter hi hlt)
    · have hlen := t.add_runAfter_le (!k.isDelimiter ·) hs
      have hend := t.not_nextIs_add_runAfter (!k.isDelimiter ·) s.stop
      by_cases hlast : s.stop + t.runAfter (!k.isDelimiter ·) s.stop = t.length
      · exact .inl hlast
      · rw [Text.nextIs_not (by omega), Bool.not_eq_false'] at hend
        exact .inr hend

theorem IsOver.eq (h : IsOver k t s q) : q =
    if t.lastIs k.isDelimiter s = true then s.stop
    else s.stop + t.runAfter (!k.isDelimiter ·) s.stop := by
  cases h with
  | behind h => rw [if_pos h]
  | before h le passes ends =>
    rw [if_neg (ne_true_of_eq_false h)]
    have hlen : q ≤ t.length :=
      ends.elim Nat.le_of_eq fun hq => Nat.le_of_lt (Text.lt_length_of_nextIs hq)
    refine (Text.add_runAfter_eq le (fun i hi hlt => ?_) ?_).symm
    · rw [Text.nextIs_not (by omega), passes i hi hlt]
      rfl
    · rcases ends with rfl | hat
      · exact eq_false_of_ne_true fun hat => Nat.lt_irrefl _ (Text.lt_length_of_nextIs hat)
      · exact Text.not_nextIs_of_disjoint (by simp) hat

/-- A step forwards comes to where a sentence begins, or nothing is left to come to. -/
theorem next?_cases (hq : IsOver k t s q) :
    (∃ p, Begins k t q p ∧ next? k t s = some <$> around k t (.point p)) ∨
      (∀ i, q ≤ i → i < t.length → t.nextIs k.isBetween i = true) ∧ next? k t s = .ok none := by
  have hpasses (i : Nat) (hi : q ≤ i) (hlt : i < q + t.runAfter k.isBetween q) :
      t.nextIs k.isBetween i = true := Text.nextIs_of_lt_add_runAfter hi hlt
  have hpos : (if !s.isEmpty && t.prevIs k.isDelimiter s.stop then s.stop
      else s.stop + t.runAfter (!k.isDelimiter ·) s.stop) = q := hq.eq.symm
  unfold next?
  simp only [hpos]
  by_cases hend : t.length ≤ q + t.runAfter k.isBetween q
  · rw [if_pos hend]
    exact .inr ⟨fun i hi hlt => hpasses i hi (by omega), rfl⟩
  · rw [if_neg hend]
    refine .inl ⟨q + t.runAfter k.isBetween q, ⟨Nat.le_add_right _ _, by omega, hpasses,
      t.not_nextIs_add_runAfter _ _⟩, ?_⟩
    cases around k t (.point (q + t.runAfter k.isBetween q)) <;> rfl

/-- What lies between sentences and is no delimiter is white space before a sentence. -/
theorem nextIs_isLeading (hbetween : t.nextIs k.isBetween i = true)
    (hnot : t.nextIs (!k.isDelimiter ·) i = true) : t.nextIs k.isLeading i = true := by
  obtain ⟨c, hc, hspace⟩ := Text.nextIs_iff.1 hbetween
  rw [Text.nextIs, hc, Option.any_some, Bool.not_eq_true'] at hnot
  rw [SentenceKind.isBetween, hnot, Bool.or_false] at hspace
  refine Text.nextIs_iff.2 ⟨c, hc, ?_⟩
  rw [SentenceKind.isLeading, hspace, hnot]
  rfl

/-- A sentence that nothing but white space and delimiters separates from a delimiter before it starts
where it begins. -/
theorem startAt_eq_self (hd : t.nextIs k.isDelimiter i = true) (hp : Begins k t (i + 1) p) :
    startAt k t p = p := by
  have hi := hp.le
  have hback : i + 1 ≤ behindDelimiter k t p := by
    have hnot : t.nextIs (!k.isDelimiter ·) i = false := Text.not_nextIs_of_disjoint (by simp) hd
    have hrun := Text.runBefore_le_of_not_nextIs (Nat.le_of_lt hp.lt_length) hnot hi
    unfold behindDelimiter
    omega
  rw [startAt_eq]
  refine Text.add_runAfter_eq (behindDelimiter_le k t p).1 (fun j hj hlt => ?_)
    (not_nextIs_of_between (fun _ => isBetween_of_isLeading) hp.content)
  exact nextIs_isLeading (hp.passes j (by omega) hlt)
    (Text.nextIs_of_sub_runBefore_le (Nat.le_of_lt hp.lt_length) hj hlt)

/-- What begins behind where a sentence is over starts there. -/
theorem IsOver.startAt_eq (hq : IsOver k t s q) (hp : Begins k t q p) : startAt k t p = p := by
  cases hq with
  | behind h =>
    obtain ⟨hlt, hd⟩ := Text.lastIs_iff.1 h
    refine startAt_eq_self hd ?_
    rw [Nat.sub_add_cancel (by omega)]
    exact hp
  | before h le passes ends =>
    have hle := hp.le
    have hlen := hp.lt_length
    rcases ends with rfl | hd
    · omega
    · have hne := ne_of_isDelimiter hp.content hd
      exact startAt_eq_self hd ⟨by omega, hlen, fun i hi => hp.passes i (by omega), hp.content⟩

/-! ## Backwards -/

/-- `p` is the last character before `c` that is neither white space nor a delimiter. -/
structure Ends (k : SentenceKind) (t : Text) (c p : Nat) : Prop where
  lt : p < c
  content : t.nextIs k.isBetween p = false
  passes : ∀ i, p < i → i < c → t.nextIs k.isBetween i = true

/-- `i` lies between two of the terminators of a sentence: its text ends with the character at `p`,
and behind that, white space apart, stand only terminators from `d` on. -/
structure Splits (t : Text) (p d i : Nat) : Prop where
  lt : p < d
  lt_place : d < i
  content : t.nextIs SentenceKind.sentence.isBetween p = false
  space : ∀ j, p < j → j < d → t.nextIs SentenceKind.sentence.isLeading j = true
  terminators : ∀ j, d ≤ j → j ≤ i → t.nextIs isSentenceTerminator j = true

/-- `i` lies between two terminators of a sentence. A clause holds none. -/
def BetweenTerminators (k : SentenceKind) (t : Text) (i : Nat) : Prop :=
  k = .sentence ∧ ∃ p d, Splits t p d i

theorem Ends.unique (h : Ends k t c p) (h' : Ends k t c q) : p = q := by
  have only {p q : Nat} (h : Ends k t c p) (h' : Ends k t c q) : ¬p < q := by
    intro hlt
    have hin := h.passes q hlt h'.lt
    rw [h'.content] at hin
    cases hin
  exact Nat.le_antisymm (Nat.le_of_not_lt (only h' h)) (Nat.le_of_not_lt (only h h'))

/-- A step backwards comes to the last character of a sentence, or nothing is left to come to. -/
theorem previous?_cases (hs : s.start ≤ t.length) :
    (∃ p, Ends k t (startAt k t s.start) p ∧ previous? k t s = some <$> around k t (.point p)) ∨
      (∀ i < startAt k t s.start, t.nextIs k.isBetween i = true) ∧ previous? k t s = .ok none := by
  have hlen := startAt_le_length k t hs
  unfold previous?
  generalize startAt k t s.start = c at hlen ⊢
  have hpasses (i : Nat) (hi : c - t.runBefore k.isBetween c ≤ i) (hlt : i < c) :
      t.nextIs k.isBetween i = true := Text.nextIs_of_sub_runBefore_le hlen hi hlt
  simp only
  by_cases hfirst : c - t.runBefore k.isBetween c = 0
  · rw [if_pos hfirst]
    exact .inr ⟨fun i hi => hpasses i (by omega) hi, rfl⟩
  · rw [if_neg hfirst]
    refine .inl ⟨c - t.runBefore k.isBetween c - 1, ⟨by omega, ?_, fun i hi hlt =>
      hpasses i (by omega) hlt⟩, ?_⟩
    · refine eq_false_of_ne_true fun hnext => ?_
      have hend := Text.not_prevIs_sub_runBefore (p := k.isBetween) hlen
      rw [Text.prevIs_iff.2 ⟨by omega, hnext⟩] at hend
      cases hend
    · cases around k t (.point (c - t.runBefore k.isBetween c - 1)) <;> rfl

/-- Before the start of a sentence that another one precedes its delimiter stands, behind the last
character of that one. -/
theorem exists_isDelimiter (hi : i ≤ t.length) (hp : Ends k t (startAt k t i) p) :
    ∃ d, p < d ∧ d < startAt k t i ∧ t.nextIs k.isDelimiter d = true := by
  have hle := (behindDelimiter_le k t i).2
  have hleading (j : Nat) (hj : behindDelimiter k t i ≤ j) (hlt : j < startAt k t i) :
      t.nextIs k.isBetween j = true :=
    Text.nextIs_mono (fun _ => isBetween_of_isLeading) (Text.nextIs_of_lt_add_runAfter hj hlt)
  have hbefore : p < behindDelimiter k t i := by
    refine Nat.lt_of_not_le fun hle => ?_
    have hin := hleading p hle hp.lt
    rw [hp.content] at hin
    cases hin
  have hd : t.nextIs k.isDelimiter (behindDelimiter k t i - 1) = true := by
    have hend := Text.not_prevIs_sub_runBefore (p := (!k.isDelimiter ·)) hi
    have hraw := (behindDelimiter_le k t i).1
    rw [← behindDelimiter, Text.prevIs_not (by omega) (by omega), Bool.not_eq_false'] at hend
    exact (Text.prevIs_iff.1 hend).2
  have hne := ne_of_isDelimiter hp.content hd
  exact ⟨behindDelimiter k t i - 1, by omega, by omega, hd⟩

/-- From a character of a sentence its delimiter is the first behind that. -/
theorem delimiterAt_eq (hp : t.nextIs k.isBetween p = false) :
    delimiterAt k t p = p + t.runAfter (!k.isDelimiter ·) p := by
  rw [delimiterAt, Nat.max_eq_left (startAt_le hp)]

/-- The delimiter of the sentence before stands before the start. -/
theorem delimiterAt_bounds (hi : i ≤ t.length) (hp : Ends k t (startAt k t i) p) :
    p < delimiterAt k t p ∧ delimiterAt k t p < startAt k t i := by
  obtain ⟨d, hpd, hdc, hd⟩ := exists_isDelimiter hi hp
  have hlt := Text.lt_length_of_nextIs hd
  have hpos := Text.runAfter_pos (nextIs_not_isDelimiter (Nat.lt_trans hpd hlt) hp.content)
  have hrun := Text.runAfter_le_of_not_nextIs
    (Text.not_nextIs_of_disjoint (q := (!k.isDelimiter ·)) (by simp) hd) (Nat.le_of_lt hpd)
  rw [delimiterAt_eq hp.content]
  omega

/-- A sentence that starts at a terminator behind another one starts at the place it is looked for. -/
theorem startAt_eq_of_terminators (hi : i ≤ t.length) (hpos : 0 < startAt k t i)
    (hlast : t.nextIs isSentenceTerminator (startAt k t i - 1) = true)
    (hat : t.nextIs isSentenceTerminator (startAt k t i) = true) : startAt k t i = i := by
  obtain ⟨hle, hraw⟩ := behindDelimiter_le k t i
  have hsame : behindDelimiter k t i = startAt k t i := by
    refine Nat.le_antisymm hraw (Nat.le_of_not_lt fun hlt => ?_)
    have hleading : t.nextIs k.isLeading (startAt k t i - 1) = true :=
      Text.nextIs_of_lt_add_runAfter (i := behindDelimiter k t i) (by omega) (by
        rw [← startAt_eq]
        omega)
    have hnot : t.nextIs k.isLeading (startAt k t i - 1) = false :=
      Text.not_nextIs_of_disjoint (fun c hc => by
        rw [SentenceKind.isLeading, isDelimiter_of_isSentenceTerminator hc, Bool.not_true,
          Bool.and_false]) hlast
    rw [hleading] at hnot
    cases hnot
  refine Nat.le_antisymm (hsame ▸ hle) (Nat.le_of_not_lt fun hlt => ?_)
  have hpassed : t.nextIs (!k.isDelimiter ·) (startAt k t i) = true :=
    Text.nextIs_of_sub_runBefore_le hi (Nat.le_of_eq hsame) hlt
  rw [Text.not_nextIs_of_disjoint (fun c hc => by rw [isDelimiter_of_isSentenceTerminator hc]; rfl)
    hat] at hpassed
  cases hpassed

/-- The sentence before ends at or before the start of a sentence and nothing but white space and
delimiters lies between the two, or it goes on across the start, which lies between two of its
terminators. -/
theorem before_or_splits (hi : i ≤ t.length) (hp : Ends k t (startAt k t i) p)
    (h : around k t (.point p) = .ok f) :
    f.span.stop ≤ startAt k t i ∧
        (∀ j, f.span.stop ≤ j → j < startAt k t i → t.nextIs k.isBetween j = true) ∨
      BetweenTerminators k t i := by
  have hlen := startAt_le_length k t hi
  have hlt := hp.lt
  obtain ⟨hfirst, hlast⟩ := around_point_bounds (by omega) hp.content h
  by_cases hover : f.span.stop ≤ startAt k t i
  · exact .inl ⟨hover, fun j hj => hp.passes j (by omega)⟩
  -- What goes on from the delimiter across the start is the run of terminators there.
  obtain ⟨hpd, hds⟩ := delimiterAt_bounds hi hp
  have hterminators (j : Nat) (hj : delimiterAt k t p ≤ j) (hjs : j ≤ startAt k t i) :=
    terminator_of_mem (j := j) (by omega) h hj (by omega)
  obtain ⟨rfl, hat⟩ := hterminators _ (Nat.le_of_lt hds) (Nat.le_refl _)
  have hplace := startAt_eq_of_terminators hi (by omega) (hterminators _ (by omega) (by omega)).2 hat
  refine .inr ⟨rfl, p, delimiterAt .sentence t p, hpd, by omega, hp.content, fun j hj hjd => ?_,
    fun j hj hjs => (hterminators j hj (by omega)).2⟩
  have hspace := hp.passes j hj (by omega)
  rw [delimiterAt_eq hp.content] at hjd
  exact nextIs_isLeading hspace (Text.nextIs_of_lt_add_runAfter (Nat.le_of_lt hj) hjd)

/-- A place between two terminators of a sentence is read as the start of one, and before it the
sentence it lies in is found. -/
theorem Splits.across {d : Nat} (h : Splits t p d i) :
    startAt .sentence t i = i ∧ Ends .sentence t i p ∧
      ∀ f, around .sentence t (.point p) = .ok f → f.span.start < i ∧ i < f.span.stop := by
  have hpd := h.lt
  have hdi := h.lt_place
  have hlen := Text.lt_length_of_nextIs (h.terminators i (Nat.le_of_lt hdi) (Nat.le_refl i))
  have hdelimiter {j : Nat} (hj : d ≤ j) (hji : j ≤ i) :
      t.nextIs SentenceKind.sentence.isDelimiter j = true :=
    Text.nextIs_mono (fun _ => isDelimiter_of_isSentenceTerminator) (h.terminators j hj hji)
  have hstart : startAt .sentence t i = i :=
    (startAt_of_terminator (h.terminators i (by omega) (Nat.le_refl i))
      (Text.prevIs_iff.2 ⟨by omega, hdelimiter (by omega) (by omega)⟩)).1
  have hends : Ends .sentence t i p := by
    refine ⟨by omega, h.content, fun j hj hji => ?_⟩
    by_cases hjd : j < d
    · exact Text.nextIs_mono (fun _ => isBetween_of_isLeading) (h.space j hj hjd)
    · exact Text.nextIs_mono (fun _ => isBetween_of_isDelimiter) (hdelimiter (by omega) (by omega))
  refine ⟨hstart, hends, fun f hf => ?_⟩
  obtain ⟨hfirst, -⟩ := around_point_bounds (by omega) h.content hf
  have hat : delimiterAt .sentence t p = d := by
    rw [delimiterAt_eq h.content]
    refine Text.add_runAfter_eq (Nat.le_of_lt hpd) (fun j hj hjd => ?_)
      (Text.not_nextIs_of_disjoint (by simp) (hdelimiter (Nat.le_refl d) (by omega)))
    by_cases hjp : j = p
    · rw [hjp]
      exact nextIs_not_isDelimiter (by omega) h.content
    · refine Text.nextIs_mono (fun c hc => ?_) (h.space j (by omega) hjd)
      simp only [SentenceKind.isLeading, Bool.and_eq_true] at hc
      exact hc.2
  have hstop := (around_point_span (by omega) hf).2
  rw [hat, stopAt, if_pos ⟨rfl, h.terminators d (Nat.le_refl d) (by omega)⟩] at hstop
  refine ⟨by omega, Nat.lt_of_not_le fun hle => ?_⟩
  have hend := t.not_nextIs_add_runAfter isSentenceTerminator d
  rw [h.terminators _ (Nat.le_add_right _ _) (by omega)] at hend
  cases hend

end VoiceEdit.Sentence
