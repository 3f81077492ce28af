import VoiceEdit.Proofs.Command.NetEffect

/-!
# Selections beside an edit

An edit replaces the characters of one span. What stands before the span stays in its
place, what stands behind it moves by the difference in length, and `adjustSelection`
follows. So a selection that the edit does not cut into holds the same characters
afterwards, empty or not and also where the two touch; one that is cut into gives way to a
cursor behind what was written.

Results:

* `Text.slice_replace_before`, `Text.slice_replace_behind`: what an edit leaves in place,
  and what it moves.
* `adjustSelection_eq_ok`: an adjusted selection is refused only beyond the limit of spans.
* `adjustSelection_keeps`: what an adjusted selection holds.
-/
namespace VoiceEdit

namespace Text

variable {t : Text} {s moved edit : Span}

theorem slice_eq_drop_take (t : Text) (s : Span) : t.slice s = (t.take s.stop).drop s.start :=
  List.drop_take.symm

/-- What stands before an edit stays in its place. -/
theorem slice_replace_before (new : Text) (h : s.stop ≤ edit.start) (ht : edit.start ≤ t.length) :
    (t.replace edit new).slice s = t.slice s := by
  have hlen : (t.take edit.start).length = edit.start := by rw [List.length_take]; omega
  have hfront : (t.replace edit new).take s.stop = t.take s.stop := by
    rw [replace, List.append_assoc, List.take_append_of_le_length (by omega), List.take_take,
      Nat.min_eq_left h]
  rw [slice_eq_drop_take, hfront, ← slice_eq_drop_take]

/-- What stands behind an edit moves by the difference in length. -/
theorem slice_replace_behind (new : Text) (h : edit.stop ≤ s.start) (ht : edit.stop ≤ t.length)
    (hstart : moved.start + edit.length = s.start + new.length)
    (hstop : moved.stop + edit.length = s.stop + new.length) :
    (t.replace edit new).slice moved = t.slice s := by
  have hle := edit.start_le_stop
  have hedit : edit.length = edit.stop - edit.start := rfl
  have hlen : (t.take edit.start ++ new).length = edit.start + new.length := by
    rw [List.length_append, List.length_take]
    omega
  have hback : (t.replace edit new).drop moved.start = t.drop s.start := by
    rw [replace, show moved.start = (t.take edit.start ++ new).length + (s.start - edit.stop) by omega,
      List.drop_length_add_append, List.drop_drop, Nat.add_sub_cancel' h]
  have hsame : moved.length = s.length := by
    simp only [Span.length]
    omega
  rw [slice, slice, hback, hsame]

end Text

namespace Command

variable {t new : Text} {selection edit a : Span}

/-- An adjusted selection is refused only where it would end beyond the limit of spans. -/
theorem adjustSelection_eq_ok (hs : selection.stop ≤ t.length) (he : edit.stop ≤ t.length)
    (hlimit : (t.replace edit new).length ≤ Span.limit) :
    ∃ a, adjustSelection selection edit new.length = .ok a := by
  have hle := edit.start_le_stop
  have hedit : edit.length = edit.stop - edit.start := rfl
  rw [t.length_replace he] at hlimit
  unfold adjustSelection
  by_cases hi : edit.intersects selection = true
  · exact ⟨_, if_pos hi⟩
  · rw [if_neg hi]
    by_cases hb : edit.stop ≤ selection.start
    · have hsel := selection.start_le_stop
      rw [if_pos hb, Span.shift, if_neg (by omega)]
      exact ⟨_, Span.ofBounds_eq_ok (by omega) (by omega)⟩
    · exact ⟨_, if_neg hb⟩

/-- A selection that an edit does not cut into holds the same characters when it is adjusted. -/
theorem slice_adjustSelection (hi : edit.intersects selection = false)
    (he : edit.stop ≤ t.length) (h : adjustSelection selection edit new.length = .ok a) :
    (t.replace edit new).slice a = t.slice selection := by
  rcases adjustSelection_cases h with ⟨hcut, -⟩ | ⟨-, hb, hstart, hstop⟩ | ⟨-, hb, rfl⟩
  · rw [hi] at hcut
    cases hcut
  · exact Text.slice_replace_behind new hb he hstart hstop
  · exact Text.slice_replace_before new hb (Nat.le_trans edit.start_le_stop he)

/-- **Bookkeeping keeps what is selected.** For a selection and an edit in the text,
whatever is written: if the edit does not cut into the selection, then the selection that
the bookkeeping answers lies in the edited text and holds there what it held before, and
the bookkeeping does answer where the edited text is within the limit of spans. If the edit
cuts into the selection, what is left is a cursor behind what was written. -/
theorem adjustSelection_keeps (t new : Text) (selection edit : Span)
    (hs : selection.stop ≤ t.length) (he : edit.stop ≤ t.length) :
    (edit.intersects selection = false →
      (∀ a, adjustSelection selection edit new.length = .ok a →
        a.stop ≤ (t.replace edit new).length ∧
          (t.replace edit new).extract a = t.extract selection) ∧
      ((t.replace edit new).length ≤ Span.limit →
        ∃ a, adjustSelection selection edit new.length = .ok a)) ∧
    (edit.intersects selection = true →
      adjustSelection selection edit new.length = .ok (.point (edit.start + new.length)) ∧
        edit.start + new.length ≤ (t.replace edit new).length) := by
  refine ⟨fun hi => ⟨fun a ha => ?_, adjustSelection_eq_ok hs he⟩, fun hi => ?_⟩
  · have hwithin := adjustSelection_within new ha hs he
    refine ⟨hwithin, ?_⟩
    rw [Text.extract_eq_ok _ hwithin, Text.extract_eq_ok _ hs, slice_adjustSelection hi he ha]
  · have hcut := adjustSelection_of_intersects hi new.length
    exact ⟨hcut, adjustSelection_within new hcut hs he⟩

/-- A word is written at the left edge of the selection, which moves on; then over the
selection and what stands before it. -/
theorem adjustSelection_keeps_word :
    let t : Text := ['a', ' ', 'c', 'a', 't']
    let new : Text := ['b', 'i', 'g', ' ']
    let selection : Span := ⟨2, 5, by decide, by decide⟩
    let moved : Span := ⟨6, 9, by decide, by decide⟩
    let across : Span := ⟨1, 3, by decide, by decide⟩
    selection.stop ≤ t.length ∧ across.stop ≤ t.length ∧
      (Span.point 2).intersects selection = false ∧
      adjustSelection selection (.point 2) new.length = .ok moved ∧
      (t.replace (.point 2) new).extract moved = t.extract selection ∧
      across.intersects selection = true ∧
      adjustSelection selection across new.length = .ok (.point 5) := by
  intro t new selection moved across
  have hs : selection.stop ≤ t.length := by decide
  have hover : across.stop ≤ t.length := by decide
  have hbeside : (Span.point 2).intersects selection = false := by decide
  have hmoved : adjustSelection selection (.point 2) new.length = .ok moved := by rfl
  have hcut : across.intersects selection = true := by decide
  have hkept := (adjustSelection_keeps t new selection (.point 2) hs (by decide)).1 hbeside
  exact ⟨hs, hover, hbeside, hmoved, (hkept.1 moved hmoved).2, hcut,
    ((adjustSelection_keeps t new selection across hs hover).2 hcut).1⟩

end Command

end VoiceEdit
