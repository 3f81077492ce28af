import VoiceEdit.Proofs.Editor.Agreement
import VoiceEdit.Proofs.Yields

/-!
# Keys that never fail

A host that presses keys has nothing to check: where the selection lies in the text, and the
text within the limit of spans, every key leads on to an editor of which the same holds of
the selection. The limit is the one condition left, and only typing comes nearer to it, so a
text with room for all that is typed stays within it.

Results:

* `press_safe`, `pressAll_safe`: one key, and as many as are pressed within the limit.
* `length_pressAll_le`: a text grows by no more than is typed.
* `runKeys_safe`: the interpreter, after every key.
-/
namespace VoiceEdit

/-- What a key types. -/
def Keystroke.typed : Keystroke → Text
  | .insert text => text
  | _ => []

namespace Editor

variable {e next : Editor} {keys : List Keystroke}

/-! ## One key -/

/-- A key within the limit does not fail. -/
theorem press_eq_ok (ha : e.Anchored) (ht : e.text.length ≤ Span.limit) (key : Keystroke) :
    ∃ next, e.press key = .ok next := by
  have hs := e.selection.start_le_stop
  have hreach : e.selection.stop ≤ e.text.length := ha
  cases key with
  | go a => exact ⟨_, rfl⟩
  | extendRight =>
    have hstop : e.selection.start ≤ min (e.selection.stop + 1) e.text.length := by omega
    obtain ⟨s, hb, -⟩ := yields_ofBounds hstop (by omega)
    exact ⟨_, bind_eq_ok.2 ⟨s, mapError_eq_ok.2 hb, rfl⟩⟩
  | clear =>
    rw [press]
    by_cases hempty : e.selection.isEmpty = true
    · rw [if_neg (by simp [hempty])]
      by_cases hstart : 0 < e.selection.start
      · -- The character before the cursor lies in the text.
        obtain ⟨s, hb, -, hstop⟩ := yields_ofBounds (Nat.sub_le e.selection.start 1) (by omega)
        have hremove := remove_eq_ok (e := e) (s := s) (by omega)
        rw [if_pos hstart]
        exact ⟨_, bind_eq_ok.2 ⟨s, mapError_eq_ok.2 hb, mapError_eq_ok.2 hremove⟩⟩
      · rw [if_neg hstart]
        exact ⟨_, rfl⟩
    · rw [if_pos (by simpa using hempty), remove_eq_ok hreach]
      exact ⟨_, rfl⟩
  | insert text => exact ⟨_, rfl⟩
  | setClipboard history text => exact ⟨_, rfl⟩

/-- A key within the limit leads to an editor whose selection lies in its text. -/
theorem press_safe (ha : e.Anchored) (ht : e.text.length ≤ Span.limit) (key : Keystroke) :
    Yields (e.press key) Anchored := by
  obtain ⟨next, hnext⟩ := press_eq_ok ha ht key
  exact ⟨next, hnext, anchored_press ha hnext⟩

theorem length_remove_le {s : Span} {after : Editor} (h : e.remove s = .ok after) :
    after.text.length ≤ e.text.length := by
  obtain ⟨_, hcheck, h⟩ := bind_eq_ok.1 h
  cases h
  have hlen := e.text.length_replace (Span.checkWithin_eq_ok_iff.1 hcheck) []
  rw [List.length_nil] at hlen
  show (e.text.replace s []).length ≤ _
  omega

/-- A key lengthens the text by no more than it types. -/
theorem length_press_le (ha : e.Anchored) {key : Keystroke} (h : e.press key = .ok next) :
    next.text.length ≤ e.text.length + key.typed.length := by
  cases key with
  | go a =>
    cases h
    exact Nat.le_refl _
  | extendRight =>
    obtain ⟨s, -, h⟩ := bind_eq_ok.1 h
    cases h
    exact Nat.le_refl _
  | clear =>
    rw [press] at h
    split at h
    · exact length_remove_le (mapError_eq_ok.1 h)
    · split at h
      · obtain ⟨s, -, h⟩ := bind_eq_ok.1 h
        exact length_remove_le (mapError_eq_ok.1 h)
      · cases h
        exact Nat.le_refl _
  | insert text =>
    cases h
    have hlen := e.text.length_replace ha text
    show (e.text.replace e.selection text).length ≤ e.text.length + text.length
    omega
  | setClipboard history text =>
    cases h
    exact Nat.le_refl _

/-! ## Any number of keys -/

/-- A text grows by no more than is typed. -/
theorem length_pressAll_le (clip : Option Text) (keys : List Keystroke) (ha : e.Anchored) :
    (e.pressAll clip keys).1.text.length ≤
      e.text.length + (keys.flatMap Keystroke.typed).length := by
  induction keys generalizing e clip with
  | nil => exact Nat.le_refl _
  | cons key keys ih =>
    rw [pressAll, List.flatMap_cons, List.length_append]
    cases hp : e.press key with
    | error err => exact Nat.le_add_right _ _
    | ok next =>
      have hnext := length_press_le ha hp
      have hrest := ih (clipboardAfterKey clip key) (anchored_press ha hp)
      simp only
      omega

/-- Keys do not fail as long as the text stays within the limit. The invariant is that the
selection lies in the text. -/
theorem pressAll_safe (clip : Option Text) (ha : e.Anchored)
    (ht : ∀ n, (e.pressAll clip (keys.take n)).1.text.length ≤ Span.limit) (n : Nat) :
    ∃ after clip', e.pressAll clip (keys.take n) = (after, .ok clip') ∧ after.Anchored := by
  induction keys generalizing e clip n with
  | nil => exact ⟨e, clip, by rw [List.take_nil]; rfl, ha⟩
  | cons key keys ih =>
    cases n with
    | zero => exact ⟨e, clip, rfl, ha⟩
    | succ n =>
      obtain ⟨next, hp, hnext⟩ := press_safe ha (ht 0) key
      have hstep (n : Nat) : e.pressAll clip ((key :: keys).take (n + 1)) =
          next.pressAll (clipboardAfterKey clip key) (keys.take n) := by
        rw [List.take_succ_cons, pressAll, hp]
      rw [hstep]
      refine ih (clipboardAfterKey clip key) hnext (fun n => ?_) n
      rw [← hstep]
      exact ht (n + 1)

/-! ## The interpreter -/

theorem runKeys_of_anchored (ha : e.Anchored) (keys : List Keystroke) :
    e.runKeys keys = e.pressAll none keys := by
  rw [runKeys, checkSelection_eq_ok_iff.2 ha]

/-- With room for all that is typed the text stays within the limit. -/
theorem length_runKeys_take_le (ha : e.Anchored)
    (hroom : e.text.length + (keys.flatMap Keystroke.typed).length ≤ Span.limit) (n : Nat) :
    (e.runKeys (keys.take n)).1.text.length ≤ Span.limit := by
  have hparts := congrArg (fun keys => (keys.flatMap Keystroke.typed).length)
    (List.take_append_drop n keys)
  simp only [List.flatMap_append, List.length_append] at hparts
  have hgrown := length_pressAll_le none (keys.take n) ha
  rw [runKeys_of_anchored ha]
  omega

/-- **Keys never fail.** From an editor whose selection lies in its text, whatever keys are
pressed and however many: if the text is within the limit of spans after each of them, then
each of them succeeds, and leaves the selection in the text as it is then. -/
theorem runKeys_safe (e : Editor) (keys : List Keystroke) (ha : e.selection.stop ≤ e.text.length)
    (ht : ∀ n, (e.runKeys (keys.take n)).1.text.length ≤ Span.limit) :
    (∃ after clip, e.runKeys keys = (after, .ok clip)) ∧
      ∀ n, ∃ after clip, e.runKeys (keys.take n) = (after, .ok clip) ∧
        after.selection.start ≤ after.selection.stop ∧
        after.selection.stop ≤ after.text.length := by
  have hrun := runKeys_of_anchored ha
  simp only [hrun] at ht ⊢
  have hsafe := pressAll_safe none ha ht
  constructor
  · obtain ⟨after, clip, hdone, -⟩ := hsafe keys.length
    rw [List.take_length] at hdone
    exact ⟨after, clip, hdone⟩
  · intro n
    obtain ⟨after, clip, hdone, hafter⟩ := hsafe n
    exact ⟨after, clip, hdone, after.selection.start_le_stop, hafter⟩

/-- Down to a shorter line, a selection to its end and beyond, deleted and typed over. -/
theorem runKeys_safe_lines :
    let e : Editor := { text := ['o', 'n', 'e', '\n', 't', 'o'], selection := .point 3 }
    let keys : List Keystroke :=
      [.go .down, .go .wordLeft, .extendRight, .extendRight, .extendRight, .setClipboard true ['x'],
        .clear, .clear, .insert ['s'], .go .up]
    e.selection.stop ≤ e.text.length ∧
      (∀ n, (e.runKeys (keys.take n)).1.text.length ≤ Span.limit) ∧
      (e.runKeys keys).1.text = ['o', 'n', 'e', 's'] ∧
      (∃ after clip, e.runKeys keys = (after, .ok clip)) ∧
      ∀ n, ∃ after clip, e.runKeys (keys.take n) = (after, .ok clip) ∧
        after.selection.start ≤ after.selection.stop ∧
        after.selection.stop ≤ after.text.length := by
  intro e keys
  have ha : e.selection.stop ≤ e.text.length := by decide
  have hroom : e.text.length + (keys.flatMap Keystroke.typed).length ≤ Span.limit := by decide
  have ht := length_runKeys_take_le ha hroom
  have htext : (e.runKeys keys).1.text = ['o', 'n', 'e', 's'] := by decide +kernel
  exact ⟨ha, ht, htext, runKeys_safe e keys ha ht⟩

end Editor

end VoiceEdit
