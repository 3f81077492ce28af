import VoiceEdit.Proofs.Modifier.Rest
import VoiceEdit.Proofs.Prose.Positions

/-!
# One sentence from all its places

From a place in a sentence or a clause that was found from another, the modifier finds the same one,
up to the delimiter that ends it. A sentence holds its terminators as well: from behind the first of
them only those from there on are found.

Results:

* `apply_sentence_iff`: what the modifier answers for a cursor.
* `apply_sentence_from_inside`: what it answers from the places in its answer.
* `apply_sentence_splits_terminators`: a sentence and a cursor between its terminators.
-/
namespace VoiceEdit.Modifier

variable {m : Modifier} {env : Setting} {t : Text} {k : SentenceKind} {found : Target} {i j : Nat}

theorem step_sentence (hkind : m.kind = .sentence k .here) {target : Target} :
    m.step env t target = .ok found ↔ Sentence.around k t target.span = .ok found := by
  have hfind : m.find env t target.span = some <$> Sentence.around k t target.span := by
    simp only [find, hkind]
  rw [step_eq_ok_iff, hfind, map_eq_ok]
  constructor
  · rintro (⟨f, hf, heq⟩ | ⟨hnone, -⟩)
    · cases heq
      exact hf
    · obtain ⟨f, -, heq⟩ := map_eq_ok.1 hnone
      cases heq
  · intro h
    exact .inl ⟨found, h, rfl⟩

/-- For a cursor the modifier answers the sentence around it, however often it is repeated. -/
theorem apply_sentence_iff (hkind : m.kind = .sentence k .here) (hrep : m.repetitions ≠ 0)
    (hne : t ≠ []) (hi : i ≤ t.length) : m.apply env t (.ofSpan (.point i)) = .ok found ↔
      Sentence.around k t (.point i) = .ok found ∧ found.Within t := by
  have hrest (next : Target) (hnext : m.step env t (.ofSpan (.point i)) = .ok next) :
      m.step env t next = .ok next := by
    have haround := (step_sentence hkind).1 hnext
    exact (step_sentence hkind).2
      (Sentence.around_self hi haround (Sentence.not_endsBefore hi haround))
  rw [apply_eq_ok_iff_step hrep hne (Target.within_ofSpan.2 hi) hrest, step_sentence hkind,
    Target.span_ofSpan]

/-- **One sentence from all its places.** Let the modifier for sentences or clauses answer a target
for a cursor. From every place in it that does not lie behind a delimiter in it, the modifier answers
the same target, with the same removal. Behind a delimiter there lie places in a sentence only, and
only among its terminators: from these the modifier answers what is left of it from there on. -/
theorem apply_sentence_from_inside (env : Setting) (hkind : m.kind = .sentence k .here)
    (h : m.apply env t (.ofSpan (.point i)) = .ok found) (hj : found.span.start ≤ j)
    (hlt : j < found.span.stop) :
    (¬(found.span.start < j ∧ t.prevIs k.isDelimiter j = true) →
      m.apply env t (.ofSpan (.point j)) = .ok found) ∧
    (found.span.start < j → t.prevIs k.isDelimiter j = true →
      k = .sentence ∧ t.prevIs isSentenceTerminator j = true ∧
        t.nextIs isSentenceTerminator j = true ∧
        ∃ again, m.apply env t (.ofSpan (.point j)) = .ok again ∧
          again.span.start = j ∧ again.span.stop = found.span.stop ∧
          again.removed.start = j ∧ again.removed.stop = found.removed.stop) := by
  have hrep := repetitions_ne_zero h
  have hwithin := apply_within h
  have hi : i ≤ t.length := ((apply_eq_ok_iff hrep).1 h).1
  have hj' : j ≤ t.length := Nat.le_trans (Nat.le_of_lt hlt) hwithin.span_stop_le
  have hne : t ≠ [] := List.ne_nil_of_length_pos
    (Nat.lt_of_lt_of_le (Nat.zero_lt_of_lt hlt) hwithin.span_stop_le)
  have haround := ((apply_sentence_iff hkind hrep hne hi).1 h).1
  have hiff := Sentence.delimiterAt_lt_iff hi haround hj hlt
  refine ⟨fun hnot => (apply_sentence_iff hkind hrep hne hj').2 ⟨?_, hwithin⟩, fun hin hprev => ?_⟩
  · have hstart := (Sentence.around_point_span hi haround).1
    have hraw := (Sentence.behindDelimiter_le k t i).2
    rw [Sentence.around_eq_of_mem hi (by omega) (Nat.le_of_not_lt (mt hiff.1 hnot))]
    exact haround
  · have hbehind := hiff.2 ⟨hin, hprev⟩
    obtain ⟨hk, again, hagain, hstart, hstop, hremoved⟩ :=
      Sentence.around_terminators hi haround hbehind hlt
    obtain ⟨-, hat⟩ := Sentence.terminator_of_mem hi haround (Nat.le_of_lt hbehind) hlt
    obtain ⟨-, hlast⟩ := Sentence.terminator_of_mem (j := j - 1) hi haround (by omega) (by omega)
    refine ⟨hk, Text.prevIs_iff.2 ⟨by omega, hlast⟩, hat, again, ?_, hstart, hstop, hremoved⟩
    refine (apply_sentence_iff hkind hrep hne hj').2 ⟨hagain, ?_⟩
    exact Nat.le_trans (Nat.le_of_eq hremoved.2) hwithin

/-- From the start of `b!` the same is found as from its end, with the space before it. -/
theorem apply_sentence_from_inside_start :
    let m : Modifier := { kind := .sentence .sentence .here }
    let env : Setting := ⟨Settings.default, .none⟩
    let t : Text := ['a', '.', ' ', 'b', '!']
    let found : Target :=
      ⟨⟨3, 5, by decide, by decide⟩, some ⟨2, 5, by decide, by decide⟩, by decide⟩
    m.kind = .sentence .sentence .here ∧ m.apply env t (.ofSpan (.point 4)) = .ok found ∧
      found.span.start ≤ 3 ∧ 3 < found.span.stop ∧
      m.apply env t (.ofSpan (.point 3)) = .ok found := by
  have haround : Sentence.around .sentence ['a', '.', ' ', 'b', '!'] (.point 4) =
      .ok ⟨⟨3, 5, by decide, by decide⟩, some ⟨2, 5, by decide, by decide⟩, by decide⟩ := by rfl
  intro m env t found
  have happly : m.apply env t (.ofSpan (.point 4)) = .ok found :=
    (apply_sentence_iff rfl (by decide) (by decide) (by decide)).2 ⟨haround, Nat.le_refl 5⟩
  have hsame := (apply_sentence_from_inside (m := m) (j := 3) env rfl happly (by decide)
    (by decide)).1 fun h => absurd h.1 (by decide)
  exact ⟨rfl, happly, by decide, by decide, hsame⟩

/-- A cursor between the terminators of `a?!`, which a cursor before them selects all of. -/
theorem apply_sentence_splits_terminators :
    let m : Modifier := { kind := .sentence .sentence .here }
    let env : Setting := ⟨Settings.default, .none⟩
    let t : Text := ['a', '?', '!']
    m.apply env t (.ofSpan (.point 0)) = .ok (.ofSpan ⟨0, 3, by decide, by decide⟩) ∧
      m.apply env t (.ofSpan (.point 2)) = .ok (.ofSpan ⟨2, 3, by decide, by decide⟩) := by
  have hall : Sentence.around .sentence ['a', '?', '!'] (.point 0) =
      .ok (.ofSpan ⟨0, 3, by decide, by decide⟩) := by rfl
  have hrest : Sentence.around .sentence ['a', '?', '!'] (.point 2) =
      .ok (.ofSpan ⟨2, 3, by decide, by decide⟩) := by rfl
  intro m env t
  have answers {i : Nat} {s : Span} (hi : i ≤ t.length) (hs : s.stop ≤ t.length)
      (h : Sentence.around .sentence t (.point i) = .ok (.ofSpan s)) :
      m.apply env t (.ofSpan (.point i)) = .ok (.ofSpan s) :=
    (apply_sentence_iff rfl (by decide) (by decide) hi).2 ⟨h, hs⟩
  exact ⟨answers (by decide) (by decide) hall, answers (by decide) (by decide) hrest⟩

end VoiceEdit.Modifier
