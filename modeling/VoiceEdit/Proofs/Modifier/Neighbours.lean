import VoiceEdit.Proofs.Modifier.Answers
import VoiceEdit.Proofs.Modifier.Sentences
import VoiceEdit.Proofs.Prose.Neighbours

/-!
# From sentence to sentence

A step forwards takes the sentence that begins next behind where the one at the end of the target is
over, and takes it just as a cursor at its first character does. A step backwards takes the one
before the sentence of the target. That one ends before, unless the target starts between two
terminators: it is then the sentence that the target starts in.

Results:

* `apply_sentence_next`: a step forwards.
* `apply_sentence_previous`: a step backwards.
* `apply_sentence_previous_overlaps`: a cursor between two terminators.
-/
namespace VoiceEdit.Modifier

open Sentence (Begins BetweenTerminators IsOver)

variable {m : Modifier} {env : Setting} {t : Text} {k : SentenceKind} {target found : Target}

/-- The modifier for sentences or clauses that takes the one here. -/
def forSentence (m : Modifier) (k : SentenceKind) : Modifier := { m with kind := .sentence k .here }

theorem find_forSentence (m : Modifier) (env : Setting) (t : Text) (k : SentenceKind) (s : Span) :
    (m.forSentence k).find env t s = some <$> Sentence.around k t s := rfl

/-- A step that always finds something does no more than find it. -/
theorem step_of_find_eq_map {r : Except Span.Error Target}
    (h : m.find env t target.span = some <$> r) : m.step env t target = r.mapError .span := by
  unfold step
  rw [h]
  cases r <;> rfl

/-! ## The next sentence -/

theorem find_next (hkind : m.kind = .sentence k .next) (s : Span) :
    m.find env t s = Sentence.next? k t s := by
  simp only [find, hkind]

theorem finds_next (hkind : m.kind = .sentence k .next) (hlen : t.length ≤ Span.limit) (s : Span) :
    Finds t (m.find env t s) := by
  rw [find_next hkind]
  exact Sentence.finds_next? k hlen

/-- **The next sentence.** Let `q` be where the sentence, or the clause, at the end of the target is
over. If only white space and delimiters follow, a step forwards keeps the target. Else it answers
what the modifier for the sentence here answers for a cursor at the first other character, and what it
selects starts at that character. -/
theorem apply_sentence_next (env : Setting) (hkind : m.kind = .sentence k .next)
    (hrep : m.repetitions = 1) (ht : target.removed.stop ≤ t.length) :
    (∃ q, IsOver k t target.span q) ∧ ∀ q, IsOver k t target.span q →
      ((∀ i, q ≤ i → i < t.length → t.nextIs k.isBetween i = true) →
        m.apply env t target = .ok target) ∧
      ((∃ i, q ≤ i ∧ i < t.length ∧ t.nextIs k.isBetween i = false) → ∃ p, Begins k t q p ∧
        m.apply env t target = (m.forSentence k).apply env t (.ofSpan (.point p)) ∧
        Answers t (m.apply env t target) (·.span.start = p)) := by
  have hin : target.Within t := ht
  have hmust : m.kind.mustFind = false := by
    rw [hkind]
    rfl
  refine ⟨Sentence.exists_isOver hin.span_stop_le, fun q hq => ?_⟩
  rcases Sentence.next?_cases hq with ⟨p, hp, hnext⟩ | ⟨hnone, hnext⟩
  · have hfind : m.find env t target.span = some <$> Sentence.around k t (.point p) :=
      (find_next hkind _).trans hnext
    have hlt := hp.lt_length
    have hne : t ≠ [] := List.ne_nil_of_length_pos (Nat.zero_lt_of_lt hlt)
    refine ⟨fun hnone => ?_, fun _ => ⟨p, hp, ?_, ?_⟩⟩
    · have hcontent := hp.content
      rw [hnone p hp.le hlt] at hcontent
      cases hcontent
    · have hcursor : (Target.ofSpan (.point p)).Within t := Nat.le_of_lt hlt
      rw [apply_of_step hrep hne hin, apply_of_step (m := m.forSentence k) hrep hne hcursor,
        step_of_find_eq_map hfind, step_of_find_eq_map (find_forSentence m env t k _),
        Target.span_ofSpan]
    · refine apply_answers_of_find hrep hne hin (fun hlen => finds_next hkind hlen _) fun r hr => ?_
      obtain ⟨f, hf, rfl⟩ := map_eq_ok.1 (hfind.symm.trans hr)
      refine ⟨f, rfl, ?_⟩
      rw [(Sentence.around_point_span (Nat.le_of_lt hlt) hf).1, hq.startAt_eq hp]
  · refine ⟨fun _ => ?_, fun ⟨i, hi, hlt, hcontent⟩ => ?_⟩
    · exact apply_of_find_eq_none hrep hmust hin ((find_next hkind _).trans hnext)
    · rw [hnone i hi hlt] at hcontent
      cases hcontent

/-- Behind the last character of `a?!` and a line break the next sentence starts at `b`, as the one
around `b` does. -/
theorem apply_sentence_next_line :
    let m : Modifier := { kind := .sentence .sentence .next }
    let env : Setting := ⟨Settings.default, .none⟩
    let t : Text := ['a', '?', '!', ' ', '\n', ' ', 'b', '.']
    let target : Target := .ofSpan ⟨2, 3, by decide, by decide⟩
    m.kind = .sentence .sentence .next ∧ m.repetitions = 1 ∧ target.removed.stop ≤ t.length ∧
      IsOver .sentence t target.span 3 ∧ Begins .sentence t 3 6 ∧
      m.apply env t target = (m.forSentence .sentence).apply env t (.ofSpan (.point 6)) ∧
      ∃ found, m.apply env t target = .ok found ∧ found.span.start = 6 := by
  intro m env t target
  have ht : target.removed.stop ≤ t.length := by decide
  have hover : IsOver .sentence t target.span 3 := .behind (by decide)
  have hbetween : ∀ i < 6, 3 ≤ i → t.nextIs SentenceKind.sentence.isBetween i = true := by decide
  have hbegins : Begins .sentence t 3 6 :=
    ⟨by decide, by decide, fun i hi hlt => hbetween i hlt hi, by decide⟩
  obtain ⟨p, hp, hsame, hstart⟩ := ((apply_sentence_next (m := m) (t := t) env rfl rfl ht).2 3 hover).2
    ⟨6, hbegins.le, hbegins.lt_length, hbegins.content⟩
  obtain rfl := hp.unique hbegins
  exact ⟨rfl, rfl, ht, hover, hbegins, hsame, hstart.resolve_right fun h => absurd h.1 (by decide)⟩

/-! ## The sentence before -/

theorem find_previous (hkind : m.kind = .sentence k .previous) (s : Span) :
    m.find env t s = Sentence.previous? k t s := by
  simp only [find, hkind]

/-- What is found ends at or before `c`, and only white space and delimiters lie between the two. -/
def EndsBefore (k : SentenceKind) (t : Text) (c : Nat) (found : Target) : Prop :=
  found.span.stop ≤ c ∧ ∀ i, found.span.stop ≤ i → i < c → t.nextIs k.isBetween i = true

theorem apply_forSentence (env : Setting) (k : SentenceKind) (hrep : m.repetitions = 1)
    (ht : target.Within t) : Answers t ((m.forSentence k).apply env t target)
      (·.span.start = Sentence.startAt k t target.span.start) := by
  refine apply_answers (m := m.forSentence k) hrep rfl ht
    (fun hlen => (Sentence.yields_around k hlen ht.span_stop_le).finds_map) fun found hfound => ?_
  rcases find_of_apply (m := m.forSentence k) hrep hfound with hfind | ⟨hempty | hnone, rfl⟩
  · obtain ⟨f, hf, heq⟩ := map_eq_ok.1 hfind
    cases heq
    exact (Sentence.around_span hf).1
  · subst hempty
    have hstop := ht.span_stop_le
    have hle := found.span.start_le_stop
    have hstart := Sentence.startAt_le_length k [] (i := found.span.start) (by omega)
    rw [List.length_nil] at hstop hstart
    omega
  · obtain ⟨f, -, heq⟩ := map_eq_ok.1 hnone
    cases heq

/-- **The sentence before.** Let `here` be what the modifier for the sentence, or the clause, here
answers. Unless the target starts between two terminators of a sentence, a step backwards keeps the
target if only white space and delimiters stand before the start of `here`, and else it answers
one that ends at or before that start, with only white space and delimiters between the two. Between two
terminators it answers one that starts before `here` does and ends behind that. -/
theorem apply_sentence_previous (env : Setting) (hkind : m.kind = .sentence k .previous)
    (hrep : m.repetitions = 1) (ht : target.removed.stop ≤ t.length) :
    Answers t ((m.forSentence k).apply env t target) fun here =>
      Answers t (m.apply env t target) fun found =>
        (¬BetweenTerminators k t target.span.start →
          found = target ∧ (∀ i < here.span.start, t.nextIs k.isBetween i = true) ∨
            EndsBefore k t here.span.start found) ∧
        (BetweenTerminators k t target.span.start →
          found.span.start < here.span.start ∧ here.span.start < found.span.stop) := by
  have hin : target.Within t := ht
  have hs : target.span.start ≤ t.length :=
    Nat.le_trans target.span.start_le_stop hin.span_stop_le
  have hmust : m.kind.mustFind = false := by
    rw [hkind]
    rfl
  refine (apply_forSentence env k hrep hin).mono fun here hhere => ?_
  rw [hhere]
  refine apply_answers hrep hmust hin (fun hlen => ?_) fun found hfound => ?_
  · rw [find_previous hkind]
    exact Sentence.finds_previous? k hlen hin.span_stop_le
  have hfind := find_of_apply hrep hfound
  rw [find_previous hkind] at hfind
  rcases Sentence.previous?_cases (k := k) hs with ⟨p, hp, hprevious⟩ | ⟨hnone, hprevious⟩
  · have haround : Sentence.around k t (.point p) = .ok found := by
      rcases hfind with hsome | ⟨rfl | hnone, -⟩
      · obtain ⟨f, hf, heq⟩ := map_eq_ok.1 (hprevious.symm.trans hsome)
        cases heq
        exact hf
      · have hlen := Sentence.startAt_le_length k [] hs
        exact absurd (Nat.lt_of_lt_of_le hp.lt hlen) (Nat.not_lt_zero p)
      · obtain ⟨f, -, heq⟩ := map_eq_ok.1 (hprevious.symm.trans hnone)
        cases heq
    refine ⟨fun hnot => .inr ((Sentence.before_or_splits hs hp haround).resolve_right hnot), ?_⟩
    rintro ⟨rfl, p', d, hsplits⟩
    obtain ⟨hstart, hends, hacross⟩ := hsplits.across
    rw [hstart] at hp ⊢
    obtain rfl := hp.unique hends
    exact hacross found haround
  · have hkept : found = target := by
      rcases hfind with hsome | ⟨-, hkept⟩
      · cases hprevious.symm.trans hsome
      · exact hkept
    refine ⟨fun _ => .inl ⟨hkept, hnone⟩, ?_⟩
    rintro ⟨rfl, p, d, hsplits⟩
    obtain ⟨hstart, hends, -⟩ := hsplits.across
    have hcontent := hends.content
    rw [hnone p (by rw [hstart]; exact hends.lt)] at hcontent
    cases hcontent

/-- From a cursor in `b.` the sentence before it is `a.`, and a space lies between the two. -/
theorem apply_sentence_previous_space :
    let m : Modifier := { kind := .sentence .sentence .previous }
    let env : Setting := ⟨Settings.default, .none⟩
    let t : Text := ['a', '.', ' ', 'b', '.']
    let target : Target := .ofSpan (.point 4)
    let here : Target :=
      ⟨⟨3, 5, by decide, by decide⟩, some ⟨2, 5, by decide, by decide⟩, by decide⟩
    m.kind = .sentence .sentence .previous ∧ m.repetitions = 1 ∧ target.removed.stop ≤ t.length ∧
      ¬BetweenTerminators .sentence t target.span.start ∧
      (m.forSentence .sentence).apply env t target = .ok here ∧
      ∃ found, m.apply env t target = .ok found ∧ EndsBefore .sentence t here.span.start found := by
  intro m env t target here
  have ht : target.removed.stop ≤ t.length := by decide
  have hshort : ¬Span.limit < t.length := by decide
  have hnot : ¬BetweenTerminators .sentence t target.span.start := by
    rintro ⟨-, p, d, h⟩
    have hterminator := h.terminators 3 (Nat.le_of_lt_succ h.lt_place) (by decide)
    revert hterminator
    decide
  have haround : Sentence.around .sentence ['a', '.', ' ', 'b', '.'] (.point 4) =
      .ok ⟨⟨3, 5, by decide, by decide⟩, some ⟨2, 5, by decide, by decide⟩, by decide⟩ := by rfl
  have hhere : (m.forSentence .sentence).apply env t target = .ok here :=
    (apply_sentence_iff rfl (by decide) (by decide) (by decide)).2 ⟨haround, Nat.le_refl 5⟩
  obtain ⟨_, hsame, hanswers⟩ := (apply_sentence_previous (m := m) (t := t) env rfl rfl ht).resolve_right
    fun h => hshort h.1
  cases hhere.symm.trans hsame
  obtain ⟨found, hfound, hends, -⟩ := hanswers.resolve_right fun h => hshort h.1
  refine ⟨rfl, rfl, ht, hnot, hhere, found, hfound, (hends hnot).resolve_left fun h => ?_⟩
  exact absurd (h.2 0 (by decide)) (by decide)

/-- A cursor between the terminators of `a?!`: the sentence here is what stands behind it, and the
sentence before is all of them. -/
theorem apply_sentence_previous_overlaps :
    let m : Modifier := { kind := .sentence .sentence .previous }
    let env : Setting := ⟨Settings.default, .none⟩
    let t : Text := ['a', '?', '!']
    let target : Target := .ofSpan (.point 2)
    (m.forSentence .sentence).apply env t target = .ok (.ofSpan ⟨2, 3, by decide, by decide⟩) ∧
      m.apply env t target = .ok (.ofSpan ⟨0, 3, by decide, by decide⟩) := by
  exact ⟨by rfl, by rfl⟩

end VoiceEdit.Modifier
