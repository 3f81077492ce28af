import VoiceEdit.Command.Run
import VoiceEdit.Proofs.Yields

/-!
# What modifiers and commands resolve to

Every step of a modifier is checked to end in the text, so whatever modifiers and
commands resolve to lies in the text they were resolved on.

Results:

* `checkWithin_eq_ok_iff`: what the check after a step accepts.
* `step_eq_ok_iff`, `apply_eq_ok_iff`: what a step and a modifier that succeed have done.
* `apply_eq_steps`, `apply_of_step`: what a modifier does, whether it succeeds or not.
* `apply_of_step_eq_ok`, `apply_of_step_eq_error`: a step that succeeds once, and one that fails.
* `apply_within`, `applyAll_within`: modifiers answer targets in the text.
* `Reach.including_cases`, `Reach.excluding_cases`: the span from one target to another.
* `resolve_within`: so do commands, with a second target or without.
-/
namespace VoiceEdit

variable {t : Text} {target found : Target}

/-! ## Modifiers -/

namespace Modifier

variable {m : Modifier} {env : Setting}

theorem checkWithin_eq_ok_iff : checkWithin target t.length = .ok () ↔ target.Within t := by
  unfold checkWithin Target.checkWithin
  rw [mapError_eq_ok, bind_eq_ok]
  constructor
  · rintro ⟨_, -, hremoved⟩
    exact Span.checkWithin_eq_ok_iff.1 hremoved
  · intro h
    exact ⟨(), Span.checkWithin_eq_ok_iff.2 h.span_stop_le, Span.checkWithin_eq_ok_iff.2 h⟩

/-- A step answers what it finds, or the target it was given where it may find nothing. -/
theorem step_eq_ok_iff : m.step env t target = .ok found ↔
    m.find env t target.span = .ok (some found) ∨
      m.find env t target.span = .ok none ∧ m.kind.mustFind = false ∧ target = found := by
  unfold step
  cases hfind : m.find env t target.span with
  | error e => simp
  | ok o =>
    cases o with
    | some f => simp
    | none => cases hmust : m.kind.mustFind <;> simp

/-- Steps that succeed end in the text. -/
theorem steps_within {n : Nat} (ht : target.Within t) (h : m.steps env t n target = .ok found) :
    found.Within t := by
  induction n generalizing target with
  | zero =>
    cases h
    exact ht
  | succ n ih =>
    rw [steps_succ] at h
    obtain ⟨next, -, h⟩ := bind_eq_ok.1 h
    obtain ⟨_, hnext, h⟩ := bind_eq_ok.1 h
    exact ih (checkWithin_eq_ok_iff.1 hnext) h

theorem repetitions_ne_zero (h : m.apply env t target = .ok found) : m.repetitions ≠ 0 := by
  intro hzero
  unfold apply at h
  rw [if_pos hzero] at h
  cases h

theorem apply_eq_ok_iff (hrep : m.repetitions ≠ 0) : m.apply env t target = .ok found ↔
    target.Within t ∧
      if t = [] then found = target else m.steps env t m.repetitions target = .ok found := by
  unfold apply
  rw [if_neg hrep]
  constructor
  · intro h
    obtain ⟨_, hcheck, h⟩ := bind_eq_ok.1 h
    refine ⟨checkWithin_eq_ok_iff.1 hcheck, ?_⟩
    by_cases hempty : t = []
    · rw [if_pos hempty] at h ⊢
      cases h
      rfl
    · rw [if_neg hempty] at h ⊢
      exact h
  · rintro ⟨ht, h⟩
    refine bind_eq_ok.2 ⟨(), checkWithin_eq_ok_iff.2 ht, ?_⟩
    by_cases hempty : t = []
    · rw [if_pos hempty] at h ⊢
      rw [h]
      rfl
    · rw [if_neg hempty] at h ⊢
      exact h

/-- In a text that is not empty, a modifier takes its steps. -/
theorem apply_eq_steps (hrep : m.repetitions ≠ 0) (hne : t ≠ []) (ht : target.Within t) :
    m.apply env t target = m.steps env t m.repetitions target := by
  unfold apply
  rw [if_neg hrep, checkWithin_eq_ok_iff.2 ht]
  show (if t = [] then _ else _) = _
  rw [if_neg hne]

/-- Applied once, a modifier answers what its step does, if that lies in the text. -/
theorem apply_of_step (hrep : m.repetitions = 1) (hne : t ≠ []) (ht : target.Within t) :
    m.apply env t target = (do
      let found ← m.step env t target
      checkWithin found t.length
      return found) := by
  rw [apply_eq_steps (by rw [hrep]; exact Nat.one_ne_zero) hne ht, hrep]
  rfl

/-- Applied once, a modifier answers what its step leads to in the text. -/
theorem apply_of_step_eq_ok (hrep : m.repetitions = 1) (hne : t ≠ []) (ht : target.Within t)
    (hstep : m.step env t target = .ok found) (hfound : found.Within t) :
    m.apply env t target = .ok found := by
  rw [apply_of_step hrep hne ht, hstep]
  exact bind_eq_ok.2 ⟨found, rfl, bind_eq_ok.2 ⟨(), checkWithin_eq_ok_iff.2 hfound, rfl⟩⟩

/-- Where the first step fails, any number of them do. -/
theorem apply_of_step_eq_error {e : Error} (hrep : m.repetitions ≠ 0) (hne : t ≠ [])
    (ht : target.Within t) (hstep : m.step env t target = .error e) :
    m.apply env t target = .error e := by
  obtain ⟨n, hn⟩ := Nat.exists_eq_succ_of_ne_zero hrep
  rw [apply_eq_steps hrep hne ht, hn, steps_succ, hstep]
  rfl

/-- What a modifier answers lies in the text. -/
theorem apply_within (h : m.apply env t target = .ok found) : found.Within t := by
  obtain ⟨ht, h⟩ := (apply_eq_ok_iff (repetitions_ne_zero h)).1 h
  by_cases hempty : t = []
  · rw [if_pos hempty] at h
    rw [h]
    exact ht
  · rw [if_neg hempty] at h
    exact steps_within ht h

/-- Modifiers in turn answer a target in the text. -/
theorem applyAll_within {ms : List Modifier} (ht : target.Within t)
    (h : applyAll env t ms target = .ok found) : found.Within t := by
  induction ms generalizing target with
  | nil =>
    cases h
    exact ht
  | cons m ms ih =>
    obtain ⟨next, hm, h⟩ := bind_eq_ok.1 h
    exact ih (apply_within hm) h

end Modifier

/-! ## Commands -/

namespace Reach

variable {a b s : Span}

theorem including_cases (h : including.combine a b = .ok s) :
    (a.start ≤ b.start ∧ s.start = a.start ∧ s.stop = b.stop) ∨
      (b.start < a.start ∧ s.start = b.start ∧ s.stop = a.stop) := by
  have hsa := a.start_le_stop
  have hsb := b.start_le_stop
  unfold combine at h
  by_cases hab : a.start ≤ b.start
  · rw [if_pos hab] at h
    obtain ⟨hstart, hstop, -⟩ := Span.ofBounds_eq_ok_iff.1 h
    omega
  · rw [if_neg hab] at h
    obtain ⟨hstart, hstop, -⟩ := Span.ofBounds_eq_ok_iff.1 h
    omega

theorem excluding_cases (h : excluding.combine a b = .ok s) :
    (a.start ≤ b.start ∧ s.start = a.start ∧ s.stop = b.start) ∨
      (b.start < a.start ∧ s.start = min b.stop a.stop ∧ s.stop = max b.stop a.stop) := by
  unfold combine at h
  by_cases hab : a.start ≤ b.start
  · rw [if_pos hab] at h
    obtain ⟨hstart, hstop, -⟩ := Span.ofBounds_eq_ok_iff.1 h
    omega
  · rw [if_neg hab] at h
    obtain ⟨hstart, hstop, -⟩ := Span.ofBounds_eq_ok_iff.1 h
    omega

/-- A span from one target to another starts and ends between their outermost edges. -/
theorem combine_between {r : Reach} (h : r.combine a b = .ok s) :
    min a.start b.start ≤ s.start ∧ s.stop ≤ max a.stop b.stop := by
  have hsa := a.start_le_stop
  have hsb := b.start_le_stop
  cases r with
  | including =>
    rcases including_cases h with ⟨-, hstart, hstop⟩ | ⟨-, hstart, hstop⟩
    · omega
    · omega
  | excluding =>
    rcases excluding_cases h with ⟨-, hstart, hstop⟩ | ⟨-, hstart, hstop⟩
    · omega
    · omega

end Reach

/-- What a command resolves to lies in the text. -/
theorem Command.resolve_within {c : Command} {env : Modifier.Setting} {selection : Span}
    (hs : selection.stop ≤ t.length) (h : c.resolve env t selection = .ok target) :
    target.Within t := by
  obtain ⟨first, hm, h⟩ := bind_eq_ok.1 h
  have hfirst := Modifier.applyAll_within (Target.within_ofSpan.2 hs) (mapError_eq_ok.1 hm)
  by_cases hempty : c.extendModifiers.isEmpty = true
  · rw [if_pos hempty] at h
    cases h
    exact hfirst
  · rw [if_neg hempty] at h
    obtain ⟨other, ho, h⟩ := bind_eq_ok.1 h
    obtain ⟨s, hc, h⟩ := bind_eq_ok.1 h
    have hother := Modifier.applyAll_within hfirst (mapError_eq_ok.1 ho)
    cases h
    have hstop := (Reach.combine_between (mapError_eq_ok.1 hc)).2
    exact Nat.le_trans hstop (Nat.max_le.2 ⟨hfirst.span_stop_le, hother.span_stop_le⟩)

end VoiceEdit
