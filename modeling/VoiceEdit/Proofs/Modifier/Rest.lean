import VoiceEdit.Proofs.Code.Rest
import VoiceEdit.Proofs.Modifier.Bounds
import VoiceEdit.Proofs.Modifier.Progress
import VoiceEdit.Proofs.Prose.Rest

/-!
# Modifiers that come to rest

A modifier that takes what stands around its target, or the edge of it, answers the same
when it is applied to its own answer, and so any number of repetitions answers what one
does. There is one exception, where what was found stops before a character and has the
same kind of character for its last: lines the last of which is blank, sentences and clauses
of which white space was given up as far as the delimiter before. What is there then is
looked for from its last character and ends before it.

Results:

* `find_self`, `find_stop_lt`: what is found again, in both cases.
* `step_self`: one more step.
* `apply_eq_ok_iff_step`, `apply_eq_self`: any number of steps, where one leads to what is at rest.
* `apply_comes_to_rest`: modifiers of these kinds, any number of times.
* `apply_line_does_not_rest`: lines the last of which is blank.
-/
namespace VoiceEdit.Modifier

/-- The kinds that take what stands around their target, or the edge of it. -/
def Kind.isContaining : Kind → Bool
  | .literal .here | .argument .here | .sentence _ .here | .link | .line _ | .lineStart | .lineEnd
  | .betweenWhitespace => true
  | _ => false

/-- What a kind stops before and leaves out. -/
def Kind.stopsBefore : Kind → Char → Bool
  | .line false, c => c == '\n'
  | .sentence k .here, c => k.endsBefore c
  | _, _ => false

/-- The modifier without repetitions. -/
def once (m : Modifier) : Modifier := { m with repetitions := 1 }

variable {m : Modifier} {env : Setting} {t : Text} {s : Span} {target found again : Target}

/-! ## What is found again -/

theorem exists_of_selectSpan {r : Except Span.Error (Option Span)}
    (h : selectSpan r = .ok (some found)) : ∃ span, r = .ok (some span) ∧ found = .ofSpan span := by
  obtain ⟨o, ho, hfound⟩ := map_eq_ok.1 h
  obtain ⟨span, rfl, rfl⟩ := Option.map_eq_some_iff.1 hfound
  exact ⟨span, ho, rfl⟩

/-- What stands around its target is found again around itself. -/
theorem find_self (hk : m.kind.isContaining = true) (hs : s.stop ≤ t.length)
    (h : m.find env t s = .ok (some found)) (hlast : t.lastIs m.kind.stopsBefore found.span = false) :
    m.find env t found.span = .ok (some found) := by
  unfold find at h ⊢
  generalize m.kind = kind at hk h hlast ⊢
  cases kind with
  | literal o =>
    cases o with
    | here =>
      obtain ⟨l, hl, hf⟩ := exists_of_targetOf h
      simp only
      rw [Literal.around?_span_eq hs hl hf, ← hl]
      exact h
    | first | next | previous => cases hk
  | argument o =>
    cases o with
    | here => exact Argument.around?_span_eq hs h
    | first | next | previous => cases hk
  | sentence k step =>
    cases step with
    | here =>
      obtain ⟨f, hf, heq⟩ := map_eq_ok.1 h
      cases heq
      simp only
      rw [Sentence.around_self hs hf hlast]
      rfl
    | next | previous => cases hk
  | link =>
    obtain ⟨link, hlink, rfl⟩ := exists_of_selectSpan h
    simp only
    rw [Target.span_ofSpan, Markdown.link?_self hs hlink]
    rfl
  | line withBreak =>
    obtain ⟨o, ho, rfl⟩ := exists_of_selectSpan h
    obtain ⟨line, hline, heq⟩ := map_eq_ok.1 ho
    cases heq
    simp only
    rw [Target.span_ofSpan, Line.around_self hs hline fun hbreak => by subst hbreak; exact hlast]
    rfl
  | lineStart =>
    cases h
    simp only
    rw [Target.span_ofSpan, Line.startOf_self hs]
    rfl
  | lineEnd =>
    cases h
    simp only
    rw [Target.span_ofSpan, Line.stopOf_self hs]
    rfl
  | betweenWhitespace =>
    obtain ⟨f, hf, heq⟩ := map_eq_ok.1 h
    cases heq
    simp only
    rw [Line.betweenWhitespace_self hs hf]
    rfl
  | token | search | comment | call | brackets | indentedBlock | bracedBlock | sectionEnd => cases hk

/-- A kind that stops before some character always finds something. -/
theorem find_ne_none {c : Char} (hc : m.kind.stopsBefore c = true) : m.find env t s ≠ .ok none := by
  intro h
  unfold find at h
  unfold Kind.stopsBefore at hc
  split at hc
  · rename_i hkind
    simp only [hkind] at h
    obtain ⟨o, ho, hnone⟩ := map_eq_ok.1 h
    obtain ⟨line, -, rfl⟩ := map_eq_ok.1 ho
    cases hnone
  · rename_i hkind
    simp only [hkind] at h
    obtain ⟨f, -, hnone⟩ := map_eq_ok.1 h
    cases hnone
  · cases hc

/-- What has for its last character one that it stops before ends earlier around itself. -/
theorem find_stop_lt (hs : s.start ≤ t.length) (h : m.find env t s = .ok (some found))
    (hlast : t.lastIs m.kind.stopsBefore found.span = true)
    (h' : m.find env t found.span = .ok (some again)) : again.span.stop < found.span.stop := by
  obtain ⟨c, -, hc⟩ := Text.nextIs_iff.1 (Text.lastIs_iff.1 hlast).2
  unfold find at h h'
  generalize m.kind = kind at h hlast h' hc
  unfold Kind.stopsBefore at hc
  split at hc
  · obtain ⟨o, ho, rfl⟩ := exists_of_selectSpan h'
    obtain ⟨line, hline, heq⟩ := map_eq_ok.1 ho
    cases heq
    exact Line.around_stop_lt hlast hline
  · rename_i k
    obtain ⟨f, hf, heq⟩ := map_eq_ok.1 h
    cases heq
    obtain ⟨f', hf', heq⟩ := map_eq_ok.1 h'
    cases heq
    have hstart : Sentence.startAt k t found.span.start = found.span.start := by
      rw [(Sentence.around_span hf).1, Sentence.startAt_self hs]
    exact Sentence.around_stop_lt hlast (Nat.le_of_eq hstart) hf'
  · cases hc

/-! ## One more step -/

theorem not_mustFind (hk : m.kind.isContaining = true) : m.kind.mustFind = false := by
  generalize m.kind = kind at hk ⊢
  cases kind with
  | token | search | indentedBlock => cases hk
  | _ => rfl

theorem step_self (hk : m.kind.isContaining = true) (ht : target.Within t)
    (h : m.step env t target = .ok found) (hlast : t.lastIs m.kind.stopsBefore found.span = false) :
    m.step env t found = .ok found := by
  rcases step_eq_ok_iff.1 h with hfind | ⟨-, -, rfl⟩
  · exact step_eq_ok_iff.2 (.inl (find_self hk ht.span_stop_le hfind hlast))
  · exact h

theorem step_stop_lt (ht : target.Within t) (h : m.step env t target = .ok found)
    (hlast : t.lastIs m.kind.stopsBefore found.span = true)
    (h' : m.step env t found = .ok again) : again.span.stop < found.span.stop := by
  have hs := Nat.le_trans target.span.start_le_stop ht.span_stop_le
  obtain ⟨c, -, hc⟩ := Text.nextIs_iff.1 (Text.lastIs_iff.1 hlast).2
  have finds {target found : Target} (h : m.step env t target = .ok found) :
      m.find env t target.span = .ok (some found) := by
    rcases step_eq_ok_iff.1 h with hfind | ⟨hfind, -, -⟩
    · exact hfind
    · exact absurd hfind (find_ne_none hc)
  exact find_stop_lt hs (finds h) hlast (finds h')

/-- What stands around a target does not depend on the settings or on homophones. -/
theorem step_eq_of_isContaining (hk : m.kind.isContaining = true) (env' : Setting) :
    m.step env t target = m.step env' t target := by
  have hfind : m.find env t target.span = m.find env' t target.span := by
    unfold find
    generalize m.kind = kind at hk ⊢
    cases kind with
    | literal o | argument o =>
      cases o with
      | here => rfl
      | first | next | previous => cases hk
    | sentence k step =>
      cases step with
      | here => rfl
      | next | previous => cases hk
    | link | line | lineStart | lineEnd | betweenWhitespace => rfl
    | token | search | comment | call | brackets | indentedBlock | bracedBlock | sectionEnd => cases hk
  unfold step
  rw [hfind]

/-- In a text within the limit something is found, or the target is kept. -/
theorem exists_step (hk : m.kind.isContaining = true) (ht : t.length ≤ Span.limit)
    (h : target.Within t) : ∃ found, m.step env t target = .ok found ∧ found.Within t := by
  have hsettles : m.Settles t (m.step ⟨Settings.default, .none⟩ t target) :=
    step_settles (finds_find ht Settings.oneLine_default h.span_stop_le) h
  rw [step_eq_of_isContaining hk ⟨Settings.default, .none⟩]
  rcases hsettles with ⟨found, hstep, hfound⟩ | ⟨-, hmust⟩
  · exact ⟨found, hstep, hfound⟩
  · rw [not_mustFind hk] at hmust
    cases hmust

/-! ## Any number of times -/

/-- Where whatever a step leads to is at rest, any number of steps answer what one does. -/
theorem apply_eq_ok_iff_step (hrep : m.repetitions ≠ 0) (hne : t ≠ []) (ht : target.Within t)
    (hrest : ∀ next, m.step env t target = .ok next → m.step env t next = .ok next) :
    m.apply env t target = .ok found ↔ m.step env t target = .ok found ∧ found.Within t := by
  constructor
  · intro h
    have hwithin := apply_within h
    obtain ⟨n, hn⟩ := Nat.exists_eq_succ_of_ne_zero hrep
    rw [apply_eq_steps hrep hne ht, hn, steps_succ] at h
    obtain ⟨next, hnext, h⟩ := bind_eq_ok.1 h
    obtain ⟨_, hcheck, h⟩ := bind_eq_ok.1 h
    rw [steps_at_rest n (checkWithin_eq_ok_iff.1 hcheck) (hrest next hnext)] at h
    cases h
    exact ⟨hnext, hwithin⟩
  · rintro ⟨hstep, hwithin⟩
    exact apply_at_rest hrep hne ht hstep hwithin (hrest found hstep)

/-- A target at rest is answered. -/
theorem apply_eq_self (hrep : m.repetitions ≠ 0) (ht : target.Within t)
    (hrest : m.step env t target = .ok target) : m.apply env t target = .ok target := by
  by_cases hempty : t = []
  · exact (apply_eq_ok_iff hrep).2 ⟨ht, by rw [if_pos hempty]⟩
  · exact apply_at_rest hrep hempty ht hrest ht hrest

theorem apply_once_eq_ok_iff : m.once.apply env t target = .ok found ↔
    target.Within t ∧
      if t = [] then found = target else m.step env t target = .ok found ∧ found.Within t := by
  rw [apply_eq_ok_iff Nat.one_ne_zero]
  have hstep : m.once.steps env t 1 target = .ok found ↔
      m.step env t target = .ok found ∧ found.Within t := by
    rw [steps_succ, bind_eq_ok]
    constructor
    · rintro ⟨f, hf, h⟩
      obtain ⟨_, hcheck, h⟩ := bind_eq_ok.1 h
      cases h
      exact ⟨hf, checkWithin_eq_ok_iff.1 hcheck⟩
    · rintro ⟨hf, hwithin⟩
      exact ⟨found, hf, bind_eq_ok.2 ⟨(), checkWithin_eq_ok_iff.2 hwithin, rfl⟩⟩
  by_cases hempty : t = []
  · simp only [if_pos hempty]
  · simp only [if_neg hempty]
    exact and_congr_right fun _ => hstep

/-- **Containing modifiers come to rest.** Whatever the text, the settings and the target in
the text, and for each kind that takes what stands around its target or the edge of it: in a
text within the limit the modifier answers, and if what it answers does not have for its last
character one that the kind stops before, then it answers the same when it is applied to
that, and any number of repetitions answers the same as one. If it does, then what is
answered for that ends earlier. -/
theorem apply_comes_to_rest (m : Modifier) (env : Setting) (t : Text) (target : Target)
    (hk : m.kind.isContaining = true) (hrep : 1 ≤ m.repetitions)
    (h : target.removed.stop ≤ t.length) :
    (t.length ≤ Span.limit → ∃ found, m.once.apply env t target = .ok found) ∧
      ∀ found, m.once.apply env t target = .ok found →
        (t.lastIs m.kind.stopsBefore found.span = false →
          m.once.apply env t found = .ok found ∧ m.apply env t target = .ok found) ∧
        (t.lastIs m.kind.stopsBefore found.span = true →
          ∀ again, m.once.apply env t found = .ok again → again.span.stop < found.span.stop) := by
  have hrep' : m.repetitions ≠ 0 := by omega
  by_cases hempty : t = []
  · -- Nothing is looked for in an empty text, and nothing in it is a last character.
    have hrest {target found : Target} : m.once.apply env t target = .ok found ↔
        target.Within t ∧ found = target := by
      rw [apply_once_eq_ok_iff, if_pos hempty]
    refine ⟨fun _ => ⟨target, hrest.2 ⟨h, rfl⟩⟩, fun found hfound => ?_⟩
    obtain ⟨ht, rfl⟩ := hrest.1 hfound
    refine ⟨fun _ => ⟨hfound, (apply_eq_ok_iff hrep').2 ⟨ht, by rw [if_pos hempty]⟩⟩, fun hlast => ?_⟩
    obtain ⟨hlt, -⟩ := Text.lastIs_iff.1 hlast
    have hstop := ht.span_stop_le
    rw [hempty, List.length_nil] at hstop
    omega
  · have hrest {target found : Target} : m.once.apply env t target = .ok found ↔
        target.Within t ∧ m.step env t target = .ok found ∧ found.Within t := by
      rw [apply_once_eq_ok_iff, if_neg hempty]
    refine ⟨fun ht => ?_, fun found hfound => ?_⟩
    · obtain ⟨found, hstep, hwithin⟩ := exists_step hk ht h
      exact ⟨found, hrest.2 ⟨h, hstep, hwithin⟩⟩
    · obtain ⟨ht, hstep, hwithin⟩ := hrest.1 hfound
      refine ⟨fun hlast => ?_, fun hlast again hagain => ?_⟩
      · have hself := step_self hk ht hstep hlast
        exact ⟨hrest.2 ⟨hwithin, hself, hwithin⟩, apply_at_rest hrep' hempty ht hstep hwithin hself⟩
      · obtain ⟨-, hstep', -⟩ := hrest.1 hagain
        exact step_stop_lt ht hstep hlast hstep'

/-- The argument that a cursor stands behind, looked for three times. -/
theorem apply_comes_to_rest_argument :
    let m : Modifier := { kind := .argument .here, repetitions := 3 }
    let env : Setting := ⟨Settings.default, .none⟩
    let t : Text := ['f', '(', 'a', ',', ' ', 'b', ' ', ')']
    let target : Target := .ofSpan (.point 7)
    let found : Target :=
      ⟨⟨5, 6, by decide, by decide⟩, some ⟨3, 6, by decide, by decide⟩, by decide⟩
    m.kind.isContaining = true ∧ 1 ≤ m.repetitions ∧ target.removed.stop ≤ t.length ∧
      m.once.apply env t target = .ok found ∧ m.once.apply env t found = .ok found ∧
      m.apply env t target = .ok found := by
  intro m env t target found
  have hk : m.kind.isContaining = true := by rfl
  have hrep : 1 ≤ m.repetitions := by decide
  have h : target.removed.stop ≤ t.length := by decide
  have honce : m.once.apply env t target = .ok found := by rfl
  have hlast : t.lastIs m.kind.stopsBefore found.span = false := by rfl
  obtain ⟨-, hrest⟩ := apply_comes_to_rest m env t target hk hrep h
  obtain ⟨hself, -⟩ := hrest found honce
  exact ⟨hk, hrep, h, honce, hself hlast⟩

/-- Two lines, the second of them blank: what is found ends with the newline of the first,
and from there only the first is found. -/
theorem apply_line_does_not_rest :
    let m : Modifier := { kind := .line false, repetitions := 2 }
    let env : Setting := ⟨Settings.default, .none⟩
    let t : Text := ['a', '\n', '\n', 'b']
    let target : Target := .ofSpan ⟨0, 3, by decide, by decide⟩
    let found : Target := .ofSpan ⟨0, 2, by decide, by decide⟩
    let again : Target := .ofSpan ⟨0, 1, by decide, by decide⟩
    target.removed.stop ≤ t.length ∧ m.once.apply env t target = .ok found ∧
      m.once.apply env t found = .ok again ∧ m.apply env t target = .ok again ∧
      again ≠ found := by
  intro m env t target found again
  have honce : m.once.apply env t target = .ok found := by rfl
  have htwice : m.once.apply env t found = .ok again := by rfl
  have hboth : m.apply env t target = .ok again := by
    have hne : ¬t = [] := by decide
    obtain ⟨ht, hfirst⟩ := apply_once_eq_ok_iff.1 honce
    obtain ⟨hfound, hsecond⟩ := apply_once_eq_ok_iff.1 htwice
    rw [if_neg hne] at hfirst hsecond
    refine (apply_eq_ok_iff (by decide)).2 ⟨ht, ?_⟩
    rw [if_neg hne]
    have hlast : m.steps env t 1 found = .ok again :=
      bind_eq_ok.2 ⟨again, hsecond.1, bind_eq_ok.2 ⟨(), checkWithin_eq_ok_iff.2 hsecond.2, rfl⟩⟩
    exact bind_eq_ok.2 ⟨found, hfirst.1, bind_eq_ok.2 ⟨(), checkWithin_eq_ok_iff.2 hfound, hlast⟩⟩
  exact ⟨by decide, honce, htwice, hboth, by decide⟩

end VoiceEdit.Modifier
