import VoiceEdit.Proofs.Modifier.Within

/-!
# Answers within the limit of spans

On a text that reaches beyond the limit of spans, a span that does is refused, whatever the
modifier. Apart from that a modifier answers what it finds, and fails only where it finds
nothing and must.

Results:

* `steps_succ_answer`, `steps_answers`: what so many steps lead to, from what each leads on to.
* `step_finds_or_keeps`, `apply_keeps`: one step of a kind that need not find anything, and what any number of
  them keep.
* `find_of_apply`, `apply_of_find_eq_none`, `noMatch_of_find_eq_none`, `error_of_apply`: a modifier
  that is applied once.
* `apply_answers`, `apply_answers_of_find`: what holds of all it answers, or of all that is found,
  holds of an answer.
-/
namespace VoiceEdit.Modifier

variable {m : Modifier} {env : Setting} {t : Text} {target found : Target} {p : Target → Prop}

/-- The answer is a target of which `p` holds, or else the text reaches beyond the limit of
spans and one that does was refused. -/
def Answers (t : Text) (r : Except Error Target) (p : Target → Prop) : Prop :=
  (∃ found, r = .ok found ∧ p found) ∨ Span.limit < t.length ∧ ∃ e, r = .error (.span e)

theorem Answers.mono {r : Except Error Target} {p q : Target → Prop} (h : Answers t r p)
    (hpq : ∀ found, p found → q found) : Answers t r q := by
  rcases h with ⟨found, hfound, hp⟩ | hlong
  · exact .inl ⟨found, hfound, hpq found hp⟩
  · exact .inr hlong

/-- The first of some steps, and then the others. -/
theorem steps_succ_answer {n : Nat} (h : Answers t (m.step env t target) fun found =>
      found.Within t ∧ Answers t (m.steps env t n found) p) :
    Answers t (m.steps env t (n + 1) target) p := by
  rw [steps_succ]
  rcases h with ⟨found, hfound, hwithin, hrest⟩ | ⟨hlong, e, he⟩
  · rw [hfound]
    simp only [bind, Except.bind, checkWithin_eq_ok_iff.2 hwithin]
    exact hrest
  · rw [he]
    exact .inr ⟨hlong, e, rfl⟩

/-- What each step leads on to, so many steps lead to. -/
theorem steps_answers {P : Nat → Target → Prop} {n : Nat}
    (hstep : ∀ k < n, ∀ target, P k target →
      Answers t (m.step env t target) fun found => found.Within t ∧ P (k + 1) found)
    (h : P 0 target) : Answers t (m.steps env t n target) (P n) := by
  induction n generalizing P target with
  | zero => exact .inl ⟨target, rfl, h⟩
  | succ n ih =>
    refine steps_succ_answer ((hstep 0 (Nat.succ_pos n) target h).mono fun found hfound =>
      ⟨hfound.1, ?_⟩)
    -- The rest begins where the first step led, with what holds one step further on.
    exact ih (P := fun k => P (k + 1)) (fun k hk => hstep (k + 1) (Nat.succ_lt_succ hk)) hfound.2

/-- A step of a kind that need not find anything leads to what is found, or stays. -/
theorem step_finds_or_keeps (hmust : m.kind.mustFind = false) (ht : target.Within t)
    (hfinds : t.length ≤ Span.limit → Finds t (m.find env t target.span))
    (hfound : ∀ found, m.find env t target.span = .ok (some found) → found.Within t ∧ p found)
    (hnone : m.find env t target.span = .ok none → p target) :
    Answers t (m.step env t target) fun found => found.Within t ∧ p found := by
  cases hfind : m.find env t target.span with
  | ok o =>
    cases o with
    | some found => exact .inl ⟨found, step_eq_ok_iff.2 (.inl hfind), hfound found hfind⟩
    | none => exact .inl ⟨target, step_eq_ok_iff.2 (.inr ⟨hfind, hmust, rfl⟩), ht, hnone hfind⟩
  | error e =>
    refine .inr ⟨Nat.lt_of_not_le fun hlen => ?_, e, ?_⟩
    · obtain ⟨o, ho, -⟩ := hfinds hlen
      rw [hfind] at ho
      cases ho
    · unfold step
      rw [hfind]

/-- What each step keeps, any number of repetitions keeps. -/
theorem apply_keeps (hrep : m.repetitions ≠ 0) (ht : target.Within t) (h : p target)
    (hstep : ∀ target, target.Within t → p target →
      Answers t (m.step env t target) fun found => found.Within t ∧ p found) :
    Answers t (m.apply env t target) p := by
  by_cases hempty : t = []
  · exact .inl ⟨target, (apply_eq_ok_iff hrep).2 ⟨ht, by rw [if_pos hempty]⟩, h⟩
  · rw [apply_eq_steps hrep hempty ht]
    have hrun : Answers t (m.steps env t m.repetitions target) fun found =>
        found.Within t ∧ p found :=
      steps_answers (P := fun _ found => found.Within t ∧ p found)
        (fun _ _ target hp => (hstep target hp.1 hp.2).mono fun found hfound =>
          ⟨hfound.1, hfound⟩) ⟨ht, h⟩
    exact hrun.mono fun found hfound => hfound.2

/-! ## Applied once -/

/-- A modifier answers what it finds; or it keeps its target, in an empty text and where it
finds nothing. -/
theorem find_of_apply (hrep : m.repetitions = 1) (h : m.apply env t target = .ok found) :
    m.find env t target.span = .ok (some found) ∨
      (t = [] ∨ m.find env t target.span = .ok none) ∧ found = target := by
  obtain ⟨ht, hsteps⟩ := (apply_eq_ok_iff (repetitions_ne_zero h)).1 h
  by_cases hempty : t = []
  · rw [if_pos hempty] at hsteps
    exact .inr ⟨.inl hempty, hsteps⟩
  · rw [apply_of_step hrep hempty ht] at h
    obtain ⟨f, hstep, h⟩ := bind_eq_ok.1 h
    obtain ⟨_, -, h⟩ := bind_eq_ok.1 h
    cases h
    rcases step_eq_ok_iff.1 hstep with hfind | ⟨hfind, -, rfl⟩
    · exact .inl hfind
    · exact .inr ⟨.inr hfind, rfl⟩

/-- A modifier that need not find anything keeps its target where it finds nothing. -/
theorem apply_of_find_eq_none (hrep : m.repetitions = 1) (hmust : m.kind.mustFind = false)
    (ht : target.Within t) (h : m.find env t target.span = .ok none) :
    m.apply env t target = .ok target := by
  have hstep : m.step env t target = .ok target := step_eq_ok_iff.2 (.inr ⟨h, hmust, rfl⟩)
  by_cases hempty : t = []
  · exact (apply_eq_ok_iff (by rw [hrep]; exact Nat.one_ne_zero)).2 ⟨ht, by rw [if_pos hempty]⟩
  · exact apply_of_step_eq_ok hrep hempty ht hstep ht

/-- A modifier that must find something fails where it finds nothing. -/
theorem noMatch_of_find_eq_none (hrep : m.repetitions = 1) (hne : t ≠ [])
    (hmust : m.kind.mustFind = true) (ht : target.Within t)
    (h : m.find env t target.span = .ok none) :
    m.apply env t target = .error (.noMatch m.kind) := by
  have hstep : m.step env t target = .error (.noMatch m.kind) := by
    unfold step
    rw [h]
    exact if_pos hmust
  exact apply_of_step_eq_error (by rw [hrep]; exact Nat.one_ne_zero) hne ht hstep

/-- A modifier that is applied once fails where it finds nothing and must, or because of a span
beyond the limit. -/
theorem error_of_apply {e : Error} (hrep : m.repetitions = 1) (ht : target.Within t)
    (hfinds : t.length ≤ Span.limit → Finds t (m.find env t target.span))
    (h : m.apply env t target = .error e) :
    (m.kind.mustFind = true ∧ m.find env t target.span = .ok none ∧ e = .noMatch m.kind) ∨
      Span.limit < t.length ∧ ∃ e', e = .span e' := by
  have hne : t ≠ [] := by
    intro hempty
    have hok : m.apply env t target = .ok target :=
      (apply_eq_ok_iff (by rw [hrep]; exact Nat.one_ne_zero)).2 ⟨ht, by rw [if_pos hempty]⟩
    rw [h] at hok
    cases hok
  rw [apply_of_step hrep hne ht] at h
  rcases bind_eq_error.1 h with hstep | ⟨f, hstep, hcheck⟩
  · unfold step at hstep
    cases hfind : m.find env t target.span with
    | error e' =>
      rw [hfind] at hstep
      cases hstep
      refine .inr ⟨Nat.lt_of_not_le fun hlen => ?_, e', rfl⟩
      obtain ⟨o, ho, -⟩ := hfinds hlen
      rw [hfind] at ho
      cases ho
    | ok o =>
      rw [hfind] at hstep
      cases o with
      | some f => cases hstep
      | none =>
        by_cases hmust : m.kind.mustFind = true
        · simp only [if_pos hmust] at hstep
          cases hstep
          exact .inl ⟨hmust, rfl, rfl⟩
        · simp only [if_neg hmust] at hstep
          cases hstep
  · refine .inr ⟨Nat.lt_of_not_le fun hlen => ?_, ?_⟩
    · have hwithin : f.Within t := by
        rcases step_eq_ok_iff.1 hstep with hfind | ⟨-, -, rfl⟩
        · obtain ⟨o, ho, hfound⟩ := hfinds hlen
          cases hfind.symm.trans ho
          exact hfound f rfl
        · exact ht
      rw [checkWithin_eq_ok_iff.2 hwithin] at hcheck
      cases hcheck
    · unfold checkWithin at hcheck
      cases hspan : f.checkWithin t.length with
      | error e' =>
        rw [hspan] at hcheck
        cases hcheck
        exact ⟨e', rfl⟩
      | ok u =>
        rw [hspan] at hcheck
        cases hcheck

/-- If everything a modifier may answer has a property, then its answer has it, for the kinds
that need not find anything. -/
theorem apply_answers (hrep : m.repetitions = 1) (hmust : m.kind.mustFind = false)
    (ht : target.Within t) (hfinds : t.length ≤ Span.limit → Finds t (m.find env t target.span))
    (h : ∀ found, m.apply env t target = .ok found → p found) :
    Answers t (m.apply env t target) p := by
  cases happly : m.apply env t target with
  | ok found => exact .inl ⟨found, rfl, h found happly⟩
  | error e =>
    rcases error_of_apply hrep ht hfinds happly with ⟨hmust', -, -⟩ | ⟨hlong, e', rfl⟩
    · rw [hmust] at hmust'
      cases hmust'
    · exact .inr ⟨hlong, e', rfl⟩

/-- If whatever is found is something and has a property, then the answer has it. -/
theorem apply_answers_of_find (hrep : m.repetitions = 1) (hne : t ≠ []) (ht : target.Within t)
    (hfinds : t.length ≤ Span.limit → Finds t (m.find env t target.span))
    (h : ∀ r, m.find env t target.span = .ok r → ∃ f, r = some f ∧ p f) :
    Answers t (m.apply env t target) p := by
  have hsome : m.find env t target.span ≠ .ok none := by
    intro hnone
    obtain ⟨f, hf, -⟩ := h none hnone
    cases hf
  cases happly : m.apply env t target with
  | ok found =>
    rcases find_of_apply hrep happly with hfind | ⟨hempty | hnone, -⟩
    · obtain ⟨f, hf, hp⟩ := h _ hfind
      cases hf
      exact .inl ⟨found, rfl, hp⟩
    · exact absurd hempty hne
    · exact absurd hnone hsome
  | error e =>
    rcases error_of_apply hrep ht hfinds happly with ⟨-, hnone, -⟩ | ⟨hlong, e', rfl⟩
    · exact absurd hnone hsome
    · exact .inr ⟨hlong, e', rfl⟩

end VoiceEdit.Modifier
