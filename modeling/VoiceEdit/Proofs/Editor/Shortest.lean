import Mathlib.Data.Nat.Dist
import VoiceEdit.Proofs.Editor.Pressing
import VoiceEdit.Proofs.Editor.Spelling

/-!
# The fewest keys that lead to a selection

With the arrow keys to the left and to the right and the key that grows the selection, a cursor is
taken to a selection by walking to its start and growing it from there. No other run of these keys is
shorter: each of them takes at most one from `keysLeft`, and at the selection nothing is left. A run
may well grow a selection and give it up on its right edge, which is no shorter than to walk there; so
of a selection that does not start where it should the nearer edge counts.

Results:

* `keysLeft_press`: a key takes at most one from what is left.
* `keysLeft_pressAll`: nor do more keys than there are.
* `ofEdits_select_shortest`: how many keys a selection is spelt out with, and that fewer do not lead
  there.
-/
namespace VoiceEdit

namespace Keystroke

/-- The keys that move the cursor or an edge of the selection by one character. -/
def stepwise : List Keystroke := [.go .left, .go .right, .extendRight]

theorem mem_stepwise {key : Keystroke} :
    key ∈ stepwise ↔ key = .go .left ∨ key = .go .right ∨ key = .extendRight := by
  simp [stepwise]

theorem arrowRun_subset_stepwise (origin target : Nat) : arrowRun origin target ⊆ stepwise := by
  intro key hkey
  unfold arrowRun at hkey
  split at hkey
  · exact mem_stepwise.2 (.inl (List.eq_of_mem_replicate hkey))
  · exact mem_stepwise.2 (.inr (.inl (List.eq_of_mem_replicate hkey)))

/-- From a cursor there is no selection to give up. -/
theorem moveTo_point (side : CollapseSide) (p target : Nat) :
    moveTo side (.point p) target = arrowRun p target := by
  simp [moveTo, collapse]

/-- A lower bound on the keys from `s` to `target`. What begins where `target` does and ends in it has
only to grow; anything else has to be given up first, at one of its edges. -/
def keysLeft (target s : Span) : Nat :=
  if s.start = target.start ∧ s.stop ≤ target.stop then target.stop - s.stop
  else min (Nat.dist s.start target.start) (Nat.dist s.stop target.start) + target.length

theorem keysLeft_self (s : Span) : keysLeft s s = 0 := by
  rw [keysLeft, if_pos ⟨rfl, Nat.le_refl _⟩, Nat.sub_self]

theorem keysLeft_point (target : Span) (p : Nat) :
    keysLeft target (.point p) = Nat.dist p target.start + target.length := by
  unfold keysLeft
  by_cases hp : (Span.point p).start = target.start ∧ (Span.point p).stop ≤ target.stop
  · rw [if_pos hp]
    simp only [Span.start_point, Span.stop_point, Nat.dist, Span.length] at hp ⊢
    omega
  · rw [if_neg hp]
    exact congrArg (· + target.length) (Nat.min_self _)

/-- Where a selection is given up, no less is left than before. -/
theorem keysLeft_le_edge {target s : Span} {p : Nat} (hp : p = s.start ∨ p = s.stop) :
    keysLeft target s ≤ keysLeft target (.point p) := by
  have hle := s.start_le_stop
  rw [keysLeft_point]
  simp only [keysLeft, Nat.dist, Span.length]
  split
  · omega
  · omega

/-- Cursors next to each other have about the same way to go. -/
theorem keysLeft_le_near {target : Span} {p q : Nat} (h : Nat.dist p q ≤ 1) :
    keysLeft target (.point p) ≤ keysLeft target (.point q) + 1 := by
  unfold Nat.dist at h
  simp only [keysLeft_point, Nat.dist]
  omega

/-- A selection grown by a character has at most one key less to go. -/
theorem keysLeft_le_grown {target s grown : Span} (hstart : grown.start = s.start)
    (hle : s.stop ≤ grown.stop) (hlt : grown.stop ≤ s.stop + 1) :
    keysLeft target s ≤ keysLeft target grown + 1 := by
  have hs := s.start_le_stop
  unfold keysLeft
  rw [hstart]
  by_cases hin : s.start = target.start ∧ grown.stop ≤ target.stop
  · rw [if_pos hin, if_pos ⟨hin.1, by omega⟩]
    omega
  · rw [if_neg hin]
    simp only [Nat.dist, Span.length]
    split
    · omega
    · omega

end Keystroke

namespace Editor

open Keystroke (keysLeft stepwise)

variable {e next : Editor} {t : Text} {s target : Span} {clip : Option Text} {keys : List Keystroke}

/-- The arrow keys to the left and to the right lead to an edge of the selection or next to one. -/
theorem target_near_edge {a : Arrow} (hs : s.stop ≤ t.length) (ha : a = .left ∨ a = .right) :
    ∃ p, (p = s.start ∨ p = s.stop) ∧ Nat.dist p (a.target t s) ≤ 1 := by
  rcases ha with rfl | rfl
  · refine ⟨s.start, .inl rfl, ?_⟩
    simp only [Arrow.target, Nat.dist]
    split
    · omega
    · omega
  · refine ⟨s.stop, .inr rfl, ?_⟩
    simp only [Arrow.target, Nat.dist]
    split
    · omega
    · omega

/-- A key takes at most one from what is left. -/
theorem keysLeft_press (target : Span) {key : Keystroke} (hkey : key ∈ stepwise) (ha : e.Anchored)
    (h : e.press key = .ok next) :
    keysLeft target e.selection ≤ keysLeft target next.selection + 1 := by
  have go {a : Arrow} (hkey : a = .left ∨ a = .right) :
      keysLeft target e.selection ≤ keysLeft target (.point (a.target e.text e.selection)) + 1 := by
    obtain ⟨p, hp, hnear⟩ := target_near_edge ha hkey
    exact Nat.le_trans (Keystroke.keysLeft_le_edge hp) (Keystroke.keysLeft_le_near hnear)
  rcases Keystroke.mem_stepwise.1 hkey with rfl | rfl | rfl
  · cases h
    exact go (.inl rfl)
  · cases h
    exact go (.inr rfl)
  · obtain ⟨grown, hgrown, h⟩ := bind_eq_ok.1 h
    cases h
    obtain ⟨hstart, hstop, -⟩ := Span.ofBounds_eq_ok_iff.1 (mapError_eq_ok.1 hgrown)
    have hle : e.selection.stop ≤ grown.stop := by
      rw [hstop]
      exact Nat.le_min.2 ⟨Nat.le_succ _, ha⟩
    have hlt : grown.stop ≤ e.selection.stop + 1 := by
      rw [hstop]
      exact Nat.min_le_left _ _
    exact Keystroke.keysLeft_le_grown hstart hle hlt

/-- Keys, as far as they succeed, take no more from what is left than there are of them. -/
theorem keysLeft_pressAll (target : Span) (clip : Option Text) (hkeys : keys ⊆ stepwise) (ha : e.Anchored) :
    keysLeft target e.selection ≤ keysLeft target (e.pressAll clip keys).1.selection + keys.length := by
  induction keys generalizing e clip with
  | nil => exact Nat.le_refl _
  | cons key keys ih =>
    obtain ⟨hkey, hkeys⟩ := List.cons_subset.1 hkeys
    rw [pressAll, List.length_cons]
    cases hp : e.press key with
    | error err => exact Nat.le_add_right _ _
    | ok next =>
      have hstep := keysLeft_press target hkey ha hp
      have hrest := ih (clipboardAfterKey clip key) hkeys (anchored_press ha hp)
      simp only
      omega

/-- Keys that lead to a selection are no fewer than what was left to it. -/
theorem keysLeft_le_length (hkeys : keys ⊆ stepwise) (ha : e.Anchored)
    (h : (e.runKeys keys).1.selection = target) : keysLeft target e.selection ≤ keys.length := by
  have hrun := keysLeft_pressAll target none hkeys ha
  rw [runKeys_of_anchored ha] at h
  rwa [h, Keystroke.keysLeft_self, Nat.zero_add] at hrun

/-! ## Selections spelt out -/

/-- From a cursor a selection is spelt out by walking to its start and growing it from there. -/
theorem ofEdit_select_point (side : CollapseSide) {p : Nat} (hcursor : e.selection = .point p)
    (hs : s.stop ≤ e.text.length) :
    ∃ keys next, Keystroke.ofEdit side e (.select s) = .ok (keys, next) ∧
      keys.length = Nat.dist p s.start + s.length ∧ keys ⊆ stepwise := by
  simp only [Keystroke.ofEdit, perform_eq_ok (.select s) hs]
  by_cases hsel : s = e.selection
  · subst hsel
    refine ⟨[], e, if_pos rfl, ?_, List.nil_subset _⟩
    rw [hcursor]
    simp [Nat.dist, Span.length]
  · refine ⟨_, _, if_neg hsel, ?_, ?_⟩
    · rw [hcursor, Keystroke.moveTo_point, List.length_append, List.length_replicate,
        Keystroke.length_arrowRun]
      rfl
    · rw [hcursor, Keystroke.moveTo_point]
      refine List.append_subset.2 ⟨Keystroke.arrowRun_subset_stepwise p s.start, fun key hkey => ?_⟩
      exact Keystroke.mem_stepwise.2 (.inr (.inr (List.eq_of_mem_replicate hkey)))

theorem ofEditsFrom_single {side : CollapseSide} {edit : Edit}
    (h : Keystroke.ofEdit side e edit = .ok (keys, next)) :
    Keystroke.ofEditsFrom side e [edit] = .ok keys := by
  simp only [Keystroke.ofEditsFrom, h]
  exact congrArg Except.ok (List.append_nil keys)

/-- **The shortest way to a selection.** From a cursor in a text to a span of it: the keys that the
selection is spelt out with, whatever selections collapse to, are as many as there are characters
between the cursor and the start of the span and characters in the span. They are of the three kinds
that move by one character, and they lead there. And no fewer keys of these kinds lead there, in any
editor with this text and this cursor. -/
theorem ofEdits_select_shortest (side : CollapseSide) (t : Text) (p : Nat) (s : Span)
    (hp : p ≤ t.length) (hs : s.stop ≤ t.length) :
    ∃ keys, Keystroke.ofEdits side t (.point p) [.select s] = .ok keys ∧
      keys.length = Nat.dist p s.start + s.length ∧ keys ⊆ stepwise ∧
      ∀ e : Editor, e.text = t → e.selection = .point p →
        (∃ after, e.runKeys keys = (after, .ok none) ∧ after.text = t ∧ after.selection = s) ∧
          ∀ other, other ⊆ stepwise → (e.runKeys other).1.selection = s →
            keys.length ≤ other.length := by
  obtain ⟨keys, next, hedit, hlength, hstepwise⟩ := ofEdit_select_point side
    (e := { text := t, selection := .point p }) rfl hs
  have hkeys : Keystroke.ofEdits side t (.point p) [.select s] = .ok keys := by
    rw [ofEdits_eq side (e := { text := t, selection := .point p }) hp]
    exact ofEditsFrom_single hedit
  refine ⟨keys, hkeys, hlength, hstepwise, fun e htext hcursor => ⟨?_, fun other hother hleads => ?_⟩⟩
  · subst htext
    have ha : e.Anchored := by rwa [Anchored, hcursor]
    have hrun : e.run [.select s] = (e.select s, .ok none) := performAll_cons (.select s) none [] hs
    obtain ⟨keys', pressed, hkeys', hpressed, hagree⟩ := ofEdits_eq_ok side ha hrun
    rw [hcursor, hkeys] at hkeys'
    cases hkeys'
    exact ⟨pressed, hpressed, hagree⟩
  · subst htext
    have ha : e.Anchored := by rwa [Anchored, hcursor]
    have hleft := keysLeft_le_length hother ha hleads
    rwa [hcursor, Keystroke.keysLeft_point, ← hlength] at hleft

/-- Back over the newline to the second word, six keys; and another run of them, which grows a
selection to give it up on its right edge, has more. -/
theorem ofEdits_select_shortest_back :
    let t : Text := ['a', ' ', 'b', 'c', '\n', 'd']
    let s : Span := ⟨2, 4, by decide, by decide⟩
    let e : Editor := { text := t, selection := .point 6 }
    let keys : List Keystroke :=
      [.go .left, .go .left, .go .left, .go .left, .extendRight, .extendRight]
    let other : List Keystroke := List.replicate 6 (.go .left) ++
      [.extendRight, .extendRight, .go .right, .extendRight, .extendRight]
    6 ≤ t.length ∧ s.stop ≤ t.length ∧ e.text = t ∧ e.selection = .point 6 ∧ other ⊆ stepwise ∧
      (e.runKeys other).1.selection = s ∧
      Keystroke.ofEdits .right t (.point 6) [.select s] = .ok keys ∧
      (e.runKeys keys).1.selection = s ∧ keys.length ≤ other.length := by
  intro t s e keys other
  have hp : 6 ≤ t.length := by decide
  have hs : s.stop ≤ t.length := by decide
  have hother : other ⊆ stepwise := by decide
  have hleads : (e.runKeys other).1.selection = s := by decide
  obtain ⟨keys', hkeys, -, -, hshortest⟩ := ofEdits_select_shortest .right t 6 s hp hs
  have hspelt : Keystroke.ofEdits .right t (.point 6) [.select s] = .ok keys := by rfl
  rw [hspelt] at hkeys
  cases hkeys
  obtain ⟨⟨after, hrun, -, hafter⟩, hfewest⟩ := hshortest e rfl rfl
  have hselected : (e.runKeys keys).1.selection = s := by rw [hrun, hafter]
  exact ⟨hp, hs, rfl, rfl, hother, hleads, hspelt, hselected, hfewest other hother hleads⟩

end Editor

end VoiceEdit
