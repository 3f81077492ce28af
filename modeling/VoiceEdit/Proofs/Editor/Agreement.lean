import VoiceEdit.Editor.Keystroke

/-!
# Editors that show the same

What a user sees of an editor is its text and its selection. `Agrees` compares two
editors by these alone: the mode, the excerpt's place and the kind of host decide
neither what an edit or a key does nor whether it fails.

Results:

* `perform_eq_ok_iff`: every edit, with the condition under which it succeeds.
* `anchored_performAll`: a selection in the text stays in the text.
* `perform_agrees`, `press_agrees`: editors that agree fail alike or go on agreeing.
-/
namespace VoiceEdit.Editor

/-- The selection lies in the text. -/
def Anchored (e : Editor) : Prop := e.selection.stop ≤ e.text.length

/-- The editors show the same text and the same selection. -/
def Agrees (a b : Editor) : Prop := a.text = b.text ∧ a.selection = b.selection

theorem Agrees.refl (e : Editor) : e.Agrees e := ⟨rfl, rfl⟩

theorem Agrees.symm {a b : Editor} (h : a.Agrees b) : b.Agrees a := ⟨h.1.symm, h.2.symm⟩

theorem Agrees.trans {a b c : Editor} (h₁ : a.Agrees b) (h₂ : b.Agrees c) : a.Agrees c :=
  ⟨h₁.1.trans h₂.1, h₁.2.trans h₂.2⟩

theorem Agrees.anchored {a b : Editor} (h : a.Agrees b) (ha : a.Anchored) : b.Anchored := by
  unfold Anchored at ha ⊢
  rwa [← h.1, ← h.2]

/-- Both fail with the same error, or both lead to editors that agree. -/
inductive SameResult : Except Error Editor → Except Error Editor → Prop
  | error (err : Error) : SameResult (.error err) (.error err)
  | ok {a b : Editor} (h : a.Agrees b) : SameResult (.ok a) (.ok b)

/-! ## Edits -/

/-- What the editor is after an edit that succeeds. -/
def edited (e : Editor) : Edit → Editor
  | .select s => e.select s
  | .insert text => e.type text
  | .delete s => { e with text := e.text.replace s [], selection := .point s.start, mode := .insert }
  | .setClipboard _ _ => e

/-- How far the text has to reach for an edit to succeed. -/
def reach (e : Editor) : Edit → Nat
  | .select s | .delete s => s.stop
  | .insert _ => e.selection.stop
  | .setClipboard _ _ => 0

theorem remove_eq_ok {e : Editor} {s : Span} (h : s.stop ≤ e.text.length) :
    e.remove s = .ok (e.edited (.delete s)) := by
  simp only [remove, Span.checkWithin_eq_ok_iff.2 h]
  rfl

/-- An edit succeeds where the text reaches as far as the edit does. -/
theorem perform_eq_ok {e : Editor} (edit : Edit) (h : e.reach edit ≤ e.text.length) :
    e.perform edit = .ok (e.edited edit) := by
  cases edit with
  | select s =>
    simp only [perform, checkSelection_eq_ok_iff.2 h]
    rfl
  | insert text =>
    simp only [perform, checkSelection_eq_ok_iff.2 h]
    rfl
  | delete s =>
    simp only [perform, remove_eq_ok h]
    rfl
  | setClipboard history text => rfl

/-- An edit that reaches beyond the text fails. -/
theorem perform_eq_error {e : Editor} {edit : Edit} (h : e.text.length < e.reach edit) :
    ∃ err, e.perform edit = .error err := by
  cases edit with
  | select s =>
    have hc : e.checkSelection s = .error (.invalidSelection s.start s.stop e.text.length) :=
      if_pos h
    exact ⟨_, by simp only [perform, hc]; rfl⟩
  | insert text =>
    have hc : e.checkSelection e.selection =
        .error (.invalidSelection e.selection.start e.selection.stop e.text.length) := if_pos h
    exact ⟨_, by simp only [perform, hc]; rfl⟩
  | delete s =>
    have hc : s.checkWithin e.text.length = .error (.outOfBounds s.stop e.text.length) := if_pos h
    exact ⟨_, by simp only [perform, remove, hc]; rfl⟩
  | setClipboard history text => exact absurd h (Nat.not_lt_zero _)

theorem perform_eq_ok_iff {e e' : Editor} {edit : Edit} :
    e.perform edit = .ok e' ↔ e.reach edit ≤ e.text.length ∧ e' = e.edited edit := by
  by_cases h : e.reach edit ≤ e.text.length
  · rw [perform_eq_ok edit h]
    simp [h, eq_comm]
  · obtain ⟨err, herr⟩ := perform_eq_error (Nat.lt_of_not_le h)
    simp [herr, h]

/-- An edit within reach keeps a selection in the text. -/
theorem anchored_edited {e : Editor} (edit : Edit) (ha : e.Anchored)
    (hr : e.reach edit ≤ e.text.length) : (e.edited edit).Anchored := by
  cases edit with
  | select s => exact hr
  | insert text =>
    have hl := e.text.length_replace hr text
    have hs := e.selection.start_le_stop
    simp only [Anchored] at ha
    simp only [Anchored, edited, type, Span.stop_point, Span.length] at hl ⊢
    omega
  | delete s =>
    have hl := e.text.length_replace hr []
    have hs := s.start_le_stop
    simp only [reach] at hr
    simp only [Anchored, edited, Span.stop_point, Span.length, List.length_nil] at hl ⊢
    omega
  | setClipboard history text => exact ha

/-- Carrying out an edit keeps a selection in the text. -/
theorem anchored_perform {e e' : Editor} (edit : Edit) (ha : e.Anchored)
    (h : e.perform edit = .ok e') : e'.Anchored := by
  obtain ⟨hr, rfl⟩ := perform_eq_ok_iff.1 h
  exact anchored_edited edit ha hr

/-- An edit within reach is carried out, and the rest behind it. -/
theorem performAll_cons {e : Editor} (edit : Edit) (clip : Option Text) (rest : List Edit)
    (h : e.reach edit ≤ e.text.length) :
    e.performAll clip (edit :: rest) =
      (e.edited edit).performAll (clipboardAfter clip edit) rest := by
  simp only [performAll, perform_eq_ok edit h]

/-- Carrying out edits, as far as they succeed, keeps a selection in the text. -/
theorem anchored_performAll {e : Editor} (clip : Option Text) (edits : List Edit)
    (ha : e.Anchored) : (e.performAll clip edits).1.Anchored := by
  induction edits generalizing e clip with
  | nil => exact ha
  | cons edit edits ih =>
    simp only [performAll]
    cases hp : e.perform edit with
    | error err => exact ha
    | ok next => exact ih _ (anchored_perform edit ha hp)

theorem edited_agrees {a b : Editor} (h : a.Agrees b) (edit : Edit) :
    (a.edited edit).Agrees (b.edited edit) := by
  obtain ⟨ht, hs⟩ := h
  cases edit with
  | select s => exact ⟨ht, rfl⟩
  | insert text => exact ⟨by simp only [edited, type, ht, hs], by simp only [edited, type, hs]⟩
  | delete s => exact ⟨by simp only [edited, ht], rfl⟩
  | setClipboard history text => exact ⟨ht, hs⟩

/-- Editors that agree fail alike at an edit, or agree behind it. -/
theorem perform_agrees {a b : Editor} (h : a.Agrees b) (edit : Edit) :
    SameResult (a.perform edit) (b.perform edit) := by
  obtain ⟨ht, hs⟩ := h
  cases edit with
  | select s =>
    simp only [perform, checkSelection, ht]
    by_cases hr : b.text.length < s.stop
    · simp only [if_pos hr]; exact .error _
    · simp only [if_neg hr]; exact .ok ⟨ht, rfl⟩
  | insert text =>
    simp only [perform, checkSelection, ht, hs]
    by_cases hr : b.text.length < b.selection.stop
    · simp only [if_pos hr]; exact .error _
    · simp only [if_neg hr]; exact .ok (edited_agrees ⟨ht, hs⟩ (.insert text))
  | delete s =>
    simp only [perform, remove, Span.checkWithin, ht]
    by_cases hr : s.stop > b.text.length
    · simp only [if_pos hr]; exact .error _
    · simp only [if_neg hr]; exact .ok ⟨rfl, rfl⟩
  | setClipboard history text => exact .ok ⟨ht, hs⟩

/-! ## Keys -/

/-- Pressing a key keeps a selection in the text. -/
theorem anchored_press {e e' : Editor} {key : Keystroke} (ha : e.Anchored)
    (h : e.press key = .ok e') : e'.Anchored := by
  cases key with
  | go a =>
    cases h
    exact Arrow.target_le_length e.text e.selection a ha
  | extendRight =>
    simp only [press] at h
    cases hb : Span.ofBounds e.selection.start (min (e.selection.stop + 1) e.text.length) with
    | error err => rw [hb] at h; cases h
    | ok s =>
      rw [hb] at h; cases h
      have := (Span.ofBounds_eq_ok_iff.1 hb).2.1
      simp only [Anchored, select]
      omega
  | clear =>
    simp only [press] at h
    by_cases hempty : e.selection.isEmpty = true
    · simp only [hempty, Bool.not_true, Bool.false_eq_true, if_false] at h
      split at h
      · cases hb : Span.ofBounds (e.selection.start - 1) e.selection.start with
        | error err => rw [hb] at h; cases h
        | ok s =>
          rw [hb] at h
          exact anchored_perform (.delete s) ha h
      · cases h; exact ha
    · simp only [hempty, Bool.not_false, if_true] at h
      exact anchored_perform (.delete e.selection) ha h
  | insert text => cases h; exact anchored_edited (.insert text) ha ha
  | setClipboard history text => cases h; exact ha

/-- Editors that agree fail alike at a key, or agree behind it. -/
theorem press_agrees {a b : Editor} (h : a.Agrees b) (key : Keystroke) :
    SameResult (a.press key) (b.press key) := by
  have ⟨ht, hs⟩ := h
  cases key with
  | go arrow => exact .ok ⟨ht, by simp only [moveTo, ht, hs]⟩
  | extendRight =>
    simp only [press, ht, hs]
    cases Span.ofBounds b.selection.start (min (b.selection.stop + 1) b.text.length) with
    | error err => exact .error _
    | ok s => exact .ok ⟨ht, rfl⟩
  | clear =>
    simp only [press, hs]
    split
    · exact perform_agrees h (.delete b.selection)
    · split
      · cases Span.ofBounds (b.selection.start - 1) b.selection.start with
        | error err => exact .error _
        | ok s => exact perform_agrees h (.delete s)
      · exact .ok h
  | insert text => exact .ok (edited_agrees h (.insert text))
  | setClipboard history text => exact .ok h

end VoiceEdit.Editor
