import VoiceEdit.Proofs.Command.Bookkeeping
import VoiceEdit.Proofs.Text.Titles

/-!
# A title of a title

The command for titles writes the title of its target in the place of the target. Given once more for
what it wrote, it leaves the text as it is exactly if a second title is the first one again. Words are
compared with the minor words up to the case of ASCII letters and written in the case of any letter, so
that is not so for every word: in a title the Turkish `ın` is `In`, which is the minor word `in`.

Results:

* `Text.slice_replace_same`, `Text.replace_eq_self_iff`: what was written, and writing what is there.
* `exists_carriesOut`, `CarriesOut.text_eq`: the command for titles, carried out on a target.
* `titleCase_again_iff`: when a second title changes nothing, of a text and in an editor.
* `titleCase_again_changes`: words that a second title changes.
-/
namespace VoiceEdit

namespace Text

variable {t new : Text} {s again : Span}

/-- What was written in the place of a span stands there. -/
theorem slice_replace_same (hs : s.stop ≤ t.length) (hstart : again.start = s.start)
    (hstop : again.stop = s.start + new.length) : (t.replace s new).slice again = new := by
  have hlen : (t.take s.start).length = s.start := by
    have := s.start_le_stop
    rw [List.length_take]
    omega
  rw [slice, replace, List.append_assoc, hstart, List.drop_left' hlen, Span.length, hstart, hstop,
    Nat.add_sub_cancel_left, List.take_left' rfl]

/-- Writing what is there changes nothing. -/
theorem replace_slice (t : Text) (s : Span) : t.replace s (t.slice s) = t := by
  have hstop : s.start + s.length = s.stop := Nat.add_sub_cancel' s.start_le_stop
  rw [replace, slice, ← List.take_add, hstop, List.take_append_drop]

/-- Nothing changes only if what is written is there. -/
theorem replace_eq_self_iff : t.replace s new = t ↔ new = t.slice s := by
  constructor
  · intro h
    have hsame : t.replace s new = t.replace s (t.slice s) := h.trans (t.replace_slice s).symm
    simpa only [replace, List.append_cancel_right_eq, List.append_cancel_left_eq] using hsame
  · rintro rfl
    exact t.replace_slice s

end Text

namespace Command

open Text (Settled titleCase)

variable {c : Command} {host : Host} {e after : Editor} {target : Target}

/-! ## Titles in an editor -/

/-- The command is carried out on `target`, and leaves `after`. -/
def CarriesOut (c : Command) (host : Host) (e : Editor) (target : Target) (after : Editor) : Prop :=
  ∃ edits clip, c.perform host e.text e.selection target = .ok edits ∧ e.run edits = (after, .ok clip)

/-- The command for titles writes the title of its target. -/
theorem CarriesOut.text_eq (h : CarriesOut c host e target after) (hkind : c.kind = .titleCase)
    (he : e.Anchored) (hr : target.Within e.text) : after.Anchored ∧ after.text =
      e.text.replace target.span (titleCase host.env.settings.minorWords (e.text.slice target.span)) := by
  obtain ⟨edits, clip, hperform, hrun⟩ := h
  obtain ⟨after', clip', hrun', heffect⟩ := run_perform he hr hperform
  rw [hrun] at hrun'
  cases hrun'
  have hanchored := Editor.anchored_performAll none edits he
  rw [Editor.run] at hrun
  rw [hrun] at hanchored
  simp only [NetEffect, hkind, replacement?, Replaced, Rewritten] at heffect
  exact ⟨hanchored, heffect.1.1⟩

/-- Where the text with the title is within the limit of spans, the command is carried out. -/
theorem exists_carriesOut (hkind : c.kind = .titleCase) (he : e.Anchored) (hr : target.Within e.text)
    (hlimit : (e.text.replace target.span (titleCase host.env.settings.minorWords
      (e.text.slice target.span))).length ≤ Span.limit) : ∃ after, CarriesOut c host e target after := by
  have hs := hr.span_stop_le
  obtain ⟨a, ha⟩ := adjustSelection_eq_ok he hs hlimit
  have hnew : c.replacement? host (e.text.slice target.span) =
      some (titleCase host.env.settings.minorWords (e.text.slice target.span)) := by
    rw [replacement?, hkind]
  have hperform := perform_of_replacement? e.selection hs hnew
  rw [replaceEdits, ha] at hperform
  obtain ⟨after, clip, hrun, -⟩ := run_perform he hr hperform
  exact ⟨after, _, clip, hperform, hrun⟩

/-- **A title of a title.** Whatever the minor words, a second title of a text is the first one
exactly if each word behind the first is settled: a minor word, brought into lowercase, is a minor word
again or begins with a character that is its own uppercase; any other word, capitalised, is again none
or is made of characters that are their own lowercase. Words of ASCII characters are settled. In an
editor, the command for titles is carried out on any target if that keeps the text within the limit of
spans; and carried out once more, on what it wrote there, it leaves the text as it is under the same
condition. -/
theorem titleCase_again_iff (minor : List Text) (t : Text) :
    (titleCase minor (titleCase minor t) = titleCase minor t ↔ ∀ w ∈ t.words.tail, Settled minor w) ∧
    ((∀ w ∈ t.words.tail, ∀ c ∈ w, c.toNat < 128) →
      titleCase minor (titleCase minor t) = titleCase minor t) ∧
    ∀ (c : Command) (host : Host) (e : Editor) (target : Target), c.kind = .titleCase →
      host.env.settings.minorWords = minor → e.Anchored → target.Within e.text →
      e.text.slice target.span = t →
      ((e.text.replace target.span (titleCase minor t)).length ≤ Span.limit →
        ∃ after, CarriesOut c host e target after) ∧
      ∀ (after : Editor) (again : Target) (after' : Editor), CarriesOut c host e target after →
        again.Within after.text → again.span.start = target.span.start →
        again.span.stop = target.span.start + (titleCase minor t).length →
        CarriesOut c host after again after' →
        (after'.text = after.text ↔ ∀ w ∈ t.words.tail, Settled minor w) := by
  have hiff := Text.titleCase_titleCase_iff minor t
  refine ⟨hiff, fun hascii => hiff.2 fun w hw => Text.settled_of_ascii minor (hascii w hw), ?_⟩
  rintro c host e target hkind rfl he hr rfl
  refine ⟨exists_carriesOut hkind he hr, fun after again after' hafter hagain hstart hstop hafter' => ?_⟩
  obtain ⟨hanchored, htext⟩ := hafter.text_eq hkind he hr
  obtain ⟨-, htext'⟩ := hafter'.text_eq hkind hanchored hagain
  have hslice : after.text.slice again.span =
      titleCase host.env.settings.minorWords (e.text.slice target.span) := by
    rw [htext]
    exact Text.slice_replace_same hr.span_stop_le hstart hstop
  rw [htext', Text.replace_eq_self_iff, hslice]
  exact hiff

/-- A second title of `the lord OF über` changes nothing, in a text where it stands behind two others. -/
theorem titleCase_again_iff_settled :
    let minor := Settings.default.minorWords
    let t : Text := "the lord OF über".toList
    let c : Command := { kind := .titleCase }
    let host : Host := ⟨⟨Settings.default, .none⟩, none⟩
    let e : Editor := { text := '#' :: ' ' :: t, selection := .point 0 }
    let target : Target := .ofSpan ⟨2, 18, by decide, by decide⟩
    t.words.tail = ["lord".toList, "OF".toList, "über".toList] ∧ (∀ w ∈ t.words.tail, Settled minor w) ∧
      titleCase minor t = "The Lord of Über".toList ∧
      titleCase minor (titleCase minor t) = titleCase minor t ∧
      e.Anchored ∧ target.Within e.text ∧ e.text.slice target.span = t ∧
      ∃ after after', CarriesOut c host e target after ∧ CarriesOut c host after target after' ∧
        after'.text = after.text := by
  intro minor t c host e target
  have hwords : t.words.tail = ["lord".toList, "OF".toList, "über".toList] := by decide +kernel
  have hsettled : ∀ w ∈ t.words.tail, Settled minor w := by decide +kernel
  have htitle : titleCase minor t = "The Lord of Über".toList := by decide +kernel
  have he : e.Anchored := Nat.zero_le _
  have hr : target.Within e.text := Target.within_ofSpan.2 (by decide)
  have hslice : e.text.slice target.span = t := by decide
  obtain ⟨hsame, -, hcommand⟩ := titleCase_again_iff minor t
  obtain ⟨hexists, hagain⟩ := hcommand c host e target rfl rfl he hr hslice
  obtain ⟨after, hafter⟩ := hexists (by rw [htitle]; decide)
  obtain ⟨hanchored, htext⟩ := hafter.text_eq rfl he hr
  have htext' : after.text = '#' :: ' ' :: titleCase minor t := by
    rw [htext, hslice]
    rfl
  have hr' : target.Within after.text := by
    rw [Target.Within, htext', htitle]
    decide
  have hlimit : (after.text.replace target.span (titleCase minor (after.text.slice target.span))).length ≤
      Span.limit := by
    rw [htext', htitle]
    decide +kernel
  obtain ⟨after', hafter'⟩ : ∃ after', CarriesOut c host after target after' :=
    exists_carriesOut rfl hanchored hr' hlimit
  exact ⟨hwords, hsettled, htitle, hsame.2 hsettled, he, hr, hslice, after, after', hafter, hafter',
    (hagain after target after' hafter hr' rfl (by rw [htitle]; rfl) hafter').2 hsettled⟩

/-- In a title `ın` is the minor word `in`, and `É` is no longer the minor word it is listed as: a second
title changes them back. -/
theorem titleCase_again_changes :
    let minor := Settings.default.minorWords
    let t : Text := "a ın".toList
    let minor' : List Text := ["É".toList]
    let t' : Text := "a É".toList
    titleCase minor t = "A In".toList ∧ titleCase minor (titleCase minor t) = "A in".toList ∧
      titleCase minor (titleCase minor t) ≠ titleCase minor t ∧
      titleCase minor' t' = "A é".toList ∧ titleCase minor' (titleCase minor' t') = "A É".toList ∧
      titleCase minor' (titleCase minor' t') ≠ titleCase minor' t' := by
  decide +kernel

end Command

end VoiceEdit
