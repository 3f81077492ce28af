import VoiceEdit.Proofs.Editor.Agreement
import VoiceEdit.Proofs.Yields

/-!
# Excerpts of a document

A host may let the engine work on an excerpt and carry the edits out on the document that
the excerpt stands in, each of them moved by the distance at which the excerpt starts.
What surrounds the excerpt then never matters: an edit that succeeds on the excerpt
succeeds on the document and leaves it with the edited excerpt in the same place.

Results:

* `Edit.movedBy_of_shift`: what moving an edit does to it.
* `Text.replace_surrounded`: replacing in an excerpt replaces in the document.
* `excerptOf_perform`, `excerptOf_performAll`: one edit, and a list of them.
* `run_moved_on_document`: the edits of an excerpt, moved, on its document.
-/
namespace VoiceEdit

/-- `moved` is `s`, `n` characters further on. -/
def Span.MovedBy (n : Nat) (s moved : Span) : Prop :=
  moved.start = s.start + n ∧ moved.stop = s.stop + n

/-- `moved` is the edit, its span `n` characters further on. -/
inductive Edit.MovedBy (n : Nat) : Edit → Edit → Prop
  | select {s moved : Span} (h : s.MovedBy n moved) : MovedBy n (.select s) (.select moved)
  | insert (text : Text) : MovedBy n (.insert text) (.insert text)
  | setClipboard (history : Bool) (text : Text) :
    MovedBy n (.setClipboard history text) (.setClipboard history text)
  | delete {s moved : Span} (h : s.MovedBy n moved) : MovedBy n (.delete s) (.delete moved)

theorem Edit.eq_of_distance {n : Nat} {delta : Int} (h : distance n = .ok delta) : delta = n := by
  unfold distance at h
  split at h
  · exact (Except.ok.inj h).symm
  · cases h

theorem Span.movedBy_of_shift {n : Nat} {s moved : Span} (h : s.shift (n : Int) = .ok moved) :
    s.MovedBy n moved := by
  obtain ⟨hstart, hstop⟩ := shift_eq_ok h
  exact ⟨by omega, by omega⟩

/-- Moving an edit moves its span and leaves the rest of it as it is. -/
theorem Edit.movedBy_of_shift {n : Nat} {edit moved : Edit} (h : edit.shift n = .ok moved) :
    edit.MovedBy n moved := by
  obtain ⟨delta, hdelta, h⟩ := bind_eq_ok.1 h
  cases eq_of_distance hdelta
  cases edit with
  | select s =>
    cases hs : s.shift (n : Int) with
    | error err => simp only [hs] at h; cases h
    | ok s' =>
      simp only [hs] at h
      cases h
      exact .select (Span.movedBy_of_shift hs)
  | insert text => cases h; exact .insert text
  | setClipboard history text => cases h; exact .setClipboard history text
  | delete s =>
    cases hs : s.shift (n : Int) with
    | error err => simp only [hs] at h; cases h
    | ok s' =>
      simp only [hs] at h
      cases h
      exact .delete (Span.movedBy_of_shift hs)

/-- Replacing a span of an excerpt replaces the moved span of the document. -/
theorem Text.replace_surrounded {pre t post new : Text} {s moved : Span}
    (hm : s.MovedBy pre.length moved) (hs : s.stop ≤ t.length) :
    Text.replace (pre ++ t ++ post) moved new = pre ++ t.replace s new ++ post := by
  obtain ⟨hstart, hstop⟩ := hm
  have hle := s.start_le_stop
  have hfront : (pre ++ t ++ post).take moved.start = pre ++ t.take s.start := by
    rw [hstart, Nat.add_comm, List.append_assoc, List.take_length_add_append,
      List.take_append_of_le_length (by omega)]
  have hback : (pre ++ t ++ post).drop moved.stop = t.drop s.stop ++ post := by
    rw [hstop, Nat.add_comm, List.append_assoc, List.drop_length_add_append,
      List.drop_append_of_le_length hs]
  rw [Text.replace, hfront, hback]
  simp only [Text.replace, List.append_assoc]

namespace Editor

/-- `e` holds what stands between `pre` and `post` in the document `d`, and selects the
same characters. -/
structure ExcerptOf (pre post : Text) (e d : Editor) : Prop where
  text : d.text = pre ++ e.text ++ post
  selection : e.selection.MovedBy pre.length d.selection

variable {pre post : Text} {e e' d : Editor}

theorem ExcerptOf.length_eq (h : ExcerptOf pre post e d) :
    d.text.length = pre.length + e.text.length + post.length := by
  rw [h.text, List.length_append, List.length_append]

/-- The document reaches as far beyond a moved edit as the excerpt does beyond the edit. -/
theorem ExcerptOf.reach_le {edit moved : Edit} (h : ExcerptOf pre post e d)
    (hm : edit.MovedBy pre.length moved) (hr : e.reach edit ≤ e.text.length) :
    d.reach moved ≤ d.text.length := by
  have hlength := h.length_eq
  cases hm with
  | select hs | delete hs =>
    have hstop := hs.2
    simp only [reach] at hr ⊢
    omega
  | insert text =>
    have hstop := h.selection.2
    simp only [reach] at hr ⊢
    omega
  | setClipboard history text => exact Nat.zero_le _

/-- An edit keeps the excerpt in its place. -/
theorem ExcerptOf.edited {edit moved : Edit} (h : ExcerptOf pre post e d)
    (hm : edit.MovedBy pre.length moved) (hr : e.reach edit ≤ e.text.length) :
    ExcerptOf pre post (e.edited edit) (d.edited moved) := by
  cases hm with
  | select hs => exact ⟨h.text, hs⟩
  | insert text =>
    refine ⟨?_, ?_⟩
    · show d.text.replace d.selection text = _
      rw [h.text, Text.replace_surrounded h.selection hr]
      rfl
    · have hstart := h.selection.1
      simp only [Editor.edited, type, Span.MovedBy, Span.start_point, Span.stop_point]
      omega
  | setClipboard history text => exact h
  | delete hs =>
    refine ⟨?_, ?_⟩
    · show d.text.replace _ [] = _
      rw [h.text, Text.replace_surrounded hs hr]
      rfl
    · exact ⟨hs.1, hs.1⟩

/-- An edit that succeeds on the excerpt succeeds, moved, on the document. -/
theorem excerptOf_perform {edit moved : Edit} (h : ExcerptOf pre post e d)
    (hm : edit.MovedBy pre.length moved) (hp : e.perform edit = .ok e') :
    ∃ d', d.perform moved = .ok d' ∧ ExcerptOf pre post e' d' := by
  obtain ⟨hr, rfl⟩ := perform_eq_ok_iff.1 hp
  exact ⟨_, perform_eq_ok moved (h.reach_le hm hr), h.edited hm hr⟩

theorem clipboardAfter_moved {n : Nat} {edit moved : Edit} (hm : edit.MovedBy n moved)
    (clip : Option Text) : clipboardAfter clip moved = clipboardAfter clip edit := by
  cases hm <;> rfl

/-- The relation of the excerpt to its document is what each edit preserves. -/
theorem excerptOf_performAll {edits moved : List Edit} {clip final : Option Text}
    (h : ExcerptOf pre post e d) (hm : edits.mapM (Edit.shift pre.length) = .ok moved)
    (hp : e.performAll clip edits = (e', .ok final)) :
    ∃ d', d.performAll clip moved = (d', .ok final) ∧ ExcerptOf pre post e' d' := by
  induction edits generalizing e d clip moved with
  | nil =>
    cases hm
    cases hp
    exact ⟨d, rfl, h⟩
  | cons edit rest ih =>
    rw [List.mapM_cons] at hm
    obtain ⟨edit', hedit, hm⟩ := bind_eq_ok.1 hm
    obtain ⟨rest', hrest, hm⟩ := bind_eq_ok.1 hm
    cases hm
    have hedit := Edit.movedBy_of_shift hedit
    rw [performAll] at hp ⊢
    cases hstep : e.perform edit with
    | error err => rw [hstep] at hp; cases hp
    | ok next =>
      obtain ⟨next', hstep', hnext⟩ := excerptOf_perform h hedit hstep
      rw [hstep] at hp
      rw [hstep', clipboardAfter_moved hedit]
      exact ih hnext hrest hp

/-- **An excerpt and its document agree.** Edits that succeed on an excerpt and can be
moved to where it starts succeed on the document. They answer the same clipboard, and
leave the document with the edited excerpt, and its selection, in the same place. -/
theorem run_moved_on_document (pre t post : Text) (s s' : Span) (edits moved : List Edit)
    (e' : Editor) (clip : Option Text) (hs : s.MovedBy pre.length s')
    (hm : edits.mapM (Edit.shift pre.length) = .ok moved)
    (h : ({ text := t, selection := s } : Editor).run edits = (e', .ok clip)) :
    ∃ d', ({ text := pre ++ t ++ post, selection := s' } : Editor).run moved = (d', .ok clip) ∧
      d'.text = pre ++ e'.text ++ post ∧ e'.selection.MovedBy pre.length d'.selection := by
  have hstart : ExcerptOf pre post { text := t, selection := s }
      { text := pre ++ t ++ post, selection := s' } := ⟨rfl, hs⟩
  obtain ⟨d', hrun, hd⟩ := excerptOf_performAll hstart hm h
  exact ⟨d', hrun, hd.text, hd.selection⟩

/-- Typing over the selection of an argument, deleting a space of it and copying, between
the parentheses of its call. -/
theorem run_moved_on_document_argument :
    let pre : Text := ['f', '(']
    let t : Text := ['a', ' ', 'b']
    let post : Text := [')']
    let s : Span := ⟨0, 1, by decide, by decide⟩
    let s' : Span := ⟨2, 3, by decide, by decide⟩
    let edits : List Edit := [.insert ['c', 'd'], .delete ⟨2, 3, by decide, by decide⟩,
      .setClipboard true ['a'], .select ⟨0, 2, by decide, by decide⟩]
    let moved : List Edit := [.insert ['c', 'd'], .delete ⟨4, 5, by decide, by decide⟩,
      .setClipboard true ['a'], .select ⟨2, 4, by decide, by decide⟩]
    let e' : Editor :=
      { text := ['c', 'd', 'b'], selection := ⟨0, 2, by decide, by decide⟩, mode := .visual }
    s.MovedBy pre.length s' ∧ edits.mapM (Edit.shift pre.length) = .ok moved ∧
      ({ text := t, selection := s } : Editor).run edits = (e', .ok (some ['a'])) ∧
      ∃ d', ({ text := pre ++ t ++ post, selection := s' } : Editor).run moved =
          (d', .ok (some ['a'])) ∧
        d'.text = pre ++ e'.text ++ post ∧ e'.selection.MovedBy pre.length d'.selection := by
  intro pre t post s s' edits moved e'
  have hs : s.MovedBy pre.length s' := ⟨rfl, rfl⟩
  have hm : edits.mapM (Edit.shift pre.length) = .ok moved := by rfl
  have hrun : ({ text := t, selection := s } : Editor).run edits = (e', .ok (some ['a'])) := by rfl
  exact ⟨hs, hm, hrun, run_moved_on_document pre t post s s' edits moved e' (some ['a']) hs hm hrun⟩

end Editor

end VoiceEdit
