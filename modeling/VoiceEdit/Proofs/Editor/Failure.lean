import VoiceEdit.Proofs.Editor.Spelling
import VoiceEdit.Proofs.Yields

/-!
# Edits that fail

A host that edits directly stops at the first edit that fails and keeps what was done before
it. A host with nothing but keys never stops half way: where it starts to press keys at all,
the edits they were compiled from succeed, and then so do the keys.

Results:

* `performAll_eq_error`: where a list of edits stops.
* `runKeys_of_ofEdits`: keys that were compiled can be pressed to the end.
* `apply_keysOnly_eq_error`: with keys alone a failure changes nothing.
* `apply_eq_error`: what a failure leaves behind, in both kinds of host.
-/
namespace VoiceEdit.Editor

variable {e e' : Editor} {clip : Option Text} {edits : List Edit} {err : Error}

/-! ## Editing directly -/

/-- Edits that fail have one among them that fails where the edits before it succeed, and
the editor is left as these make it. -/
theorem performAll_eq_error (h : e.performAll clip edits = (e', .error err)) :
    ∃ before failing after clip', edits = before ++ failing :: after ∧
      e.performAll clip before = (e', .ok clip') ∧ e'.perform failing = .error err := by
  induction edits generalizing e clip with
  | nil => cases h
  | cons edit rest ih =>
    rw [performAll] at h
    cases hp : e.perform edit with
    | error err' =>
      rw [hp] at h
      cases h
      exact ⟨[], edit, rest, clip, rfl, rfl, hp⟩
    | ok next =>
      rw [hp] at h
      obtain ⟨before, failing, after, clip', hsplit, hdone, hfails⟩ := ih h
      refine ⟨edit :: before, failing, after, clip', by rw [hsplit, List.cons_append], ?_, hfails⟩
      rw [performAll, hp]
      exact hdone

/-! ## Editing with keys alone -/

/-- Keys are only compiled in an editor whose selection lies in its text. -/
theorem anchored_of_ofEdits {side : CollapseSide} {keys : List Keystroke}
    (h : Keystroke.ofEdits side e.text e.selection edits = .ok keys) : e.Anchored := by
  obtain ⟨_, hcheck, -⟩ := bind_eq_ok.1 h
  exact checkSelection_eq_ok_iff.1 hcheck

/-- Keys that were compiled can be pressed to the end. -/
theorem runKeys_of_ofEdits {side : CollapseSide} {keys : List Keystroke}
    (h : Keystroke.ofEdits side e.text e.selection edits = .ok keys) :
    ∃ pressed clip, e.runKeys keys = (pressed, .ok clip) := by
  have ha := anchored_of_ofEdits h
  rcases hrun : e.run edits with ⟨after, _ | clip⟩
  · rw [ofEdits_eq_error side ha hrun] at h
    cases h
  · obtain ⟨keys', pressed, hkeys, hpressed, -⟩ := ofEdits_eq_ok side ha hrun
    rw [h] at hkeys
    cases hkeys
    exact ⟨pressed, clip, hpressed⟩

/-- With keys alone a failure comes before the first key. -/
theorem apply_keysOnly_eq_error (hk : e.keysOnly = true) (h : e.apply edits = (e', .error err)) :
    e' = e := by
  rw [apply, if_neg (by simp [hk])] at h
  cases hkeys : Keystroke.ofEdits Settings.default.collapse e.text e.selection edits with
  | error err' =>
    rw [hkeys] at h
    cases h
    rfl
  | ok keys =>
    obtain ⟨pressed, clip, hpressed⟩ := runKeys_of_ofEdits hkeys
    rw [hkeys] at h
    simp only [hpressed] at h
    cases h

/-! ## Both kinds of host -/

theorem apply_of_not_keysOnly (hk : e.keysOnly = false) (edits : List Edit) :
    e.apply edits = e.run edits := by
  rw [apply, if_pos (by simp [hk])]

/-- **What a failure leaves behind.** Whether the selection lies in the text or not: with
keys alone, edits that fail leave the editor as it was. Otherwise one of them is the first
that fails, the editor is left as the edits before it, which succeed, leave it, and neither
that edit nor any in place of those behind it make a difference. -/
theorem apply_eq_error (e : Editor) (edits : List Edit) (err : Error)
    (h : (e.apply edits).2 = .error err) :
    (e.keysOnly = true → (e.apply edits).1 = e) ∧
      (e.keysOnly = false → ∃ before failing after clip, edits = before ++ failing :: after ∧
        e.apply before = ((e.apply edits).1, .ok clip) ∧
        (e.apply edits).1.perform failing = .error err ∧
        ∀ after', e.apply (before ++ failing :: after') = e.apply edits) := by
  obtain ⟨⟨e', result⟩, happly⟩ : ∃ r, e.apply edits = r := ⟨_, rfl⟩
  rw [happly] at h ⊢
  cases h
  refine ⟨fun hk => apply_keysOnly_eq_error hk happly, fun hk => ?_⟩
  rw [apply_of_not_keysOnly hk] at happly
  obtain ⟨before, failing, after, clip, hsplit, hdone, hfails⟩ := performAll_eq_error happly
  refine ⟨before, failing, after, clip, hsplit, ?_, hfails, fun after' => ?_⟩
  · rw [apply_of_not_keysOnly hk]
    exact hdone
  · rw [apply_of_not_keysOnly hk]
    show e.performAll none _ = _
    rw [performAll_append hdone, performAll, hfails]

/-- The second deletion reaches beyond what the first leaves: with keys alone none is made,
otherwise the first is. -/
theorem apply_eq_error_delete :
    let e : Editor := { text := ['o', 'n', 'e'], selection := ⟨1, 9, by decide, by decide⟩ }
    let keys : Editor := { e with selection := .point 3, keysOnly := true }
    let cut : Edit := .delete ⟨0, 2, by decide, by decide⟩
    let edits : List Edit := [cut, cut, .insert ['2']]
    (e.apply edits).2 = .error (.span (.outOfBounds 2 1)) ∧
      (keys.apply edits).2 = .error (.span (.outOfBounds 2 1)) ∧
      (keys.apply edits).1 = keys ∧
      (e.apply edits).1 = { text := ['e'], selection := .point 0, mode := .insert } ∧
      ∃ before failing after clip, edits = before ++ failing :: after ∧
        e.apply before = ((e.apply edits).1, .ok clip) ∧
        (e.apply edits).1.perform failing = .error (.span (.outOfBounds 2 1)) ∧
        ∀ after', e.apply (before ++ failing :: after') = e.apply edits := by
  intro e keys cut edits
  have hdirect : (e.apply edits).2 = .error (.span (.outOfBounds 2 1)) := by rfl
  have hkeys : (keys.apply edits).2 = .error (.span (.outOfBounds 2 1)) := by rfl
  exact ⟨hdirect, hkeys, (apply_eq_error keys edits _ hkeys).1 rfl, by rfl,
    (apply_eq_error e edits _ hdirect).2 rfl⟩

end VoiceEdit.Editor
