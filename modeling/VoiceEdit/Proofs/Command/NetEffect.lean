import VoiceEdit.Command.Run
import VoiceEdit.Proofs.Editor.Agreement
import VoiceEdit.Proofs.Yields

/-!
# What a command comes to

A command answers with edits; `NetEffect` says, kind by kind, what is left when an
editor has carried them out: the text, the selection and the clipboard. The edits that
rewrite a span end by putting the selection back, unless it stands there already.

Results:

* `adjustSelection_cases`: where a selection goes, by its place relative to the edit.
* `performAll_replaceEdits`, `performAll_clearEdits`: rewriting a span and clearing one.
* `perform_of_replacement?`: a command that has a replacement answers with its edits.
* `run_perform`: whatever a command answers can be carried out and has its net effect.
* `perform_netEffect`: the same for a text and its selection.
-/
namespace VoiceEdit.Command

/-! ## Adjusted selections -/

/-- A selection is cut into, moves along with the text behind the edit, or lies before
the edit and stays. -/
theorem adjustSelection_cases {selection edit a : Span} {n : Nat}
    (h : adjustSelection selection edit n = .ok a) :
    (edit.intersects selection = true ∧ a = .point (edit.start + n)) ∨
    (edit.intersects selection = false ∧ edit.stop ≤ selection.start ∧
      a.start + edit.length = selection.start + n ∧ a.stop + edit.length = selection.stop + n) ∨
    (edit.intersects selection = false ∧ selection.stop ≤ edit.start ∧ a = selection) := by
  unfold adjustSelection at h
  by_cases hi : edit.intersects selection = true
  · rw [if_pos hi] at h
    cases h
    exact .inl ⟨hi, rfl⟩
  · have hi' : edit.intersects selection = false := by simpa using hi
    rw [if_neg hi] at h
    by_cases hb : edit.stop ≤ selection.start
    · rw [if_pos hb] at h
      obtain ⟨h₁, h₂⟩ := Span.shift_eq_ok h
      exact .inr (.inl ⟨hi', hb, by omega, by omega⟩)
    · rw [if_neg hb] at h
      cases h
      rw [Span.intersects_iff] at hi
      exact .inr (.inr ⟨hi', by omega, rfl⟩)

/-- A selection in the text is adjusted to one in the text with the edit made. -/
theorem adjustSelection_within {t : Text} (new : Text) {selection edit a : Span}
    (h : adjustSelection selection edit new.length = .ok a) (hs : selection.stop ≤ t.length)
    (he : edit.stop ≤ t.length) : a.stop ≤ (t.replace edit new).length := by
  rw [t.length_replace he]
  have hle := edit.start_le_stop
  have hlen : edit.length = edit.stop - edit.start := rfl
  rcases adjustSelection_cases h with ⟨-, rfl⟩ | ⟨-, -, -, h₂⟩ | ⟨-, hb, rfl⟩
  · rw [Span.stop_point]; omega
  · omega
  · omega

/-! ## Net effects -/

/-- Nothing an editor shows has changed. -/
def Unchanged (t : Text) (selection : Span) (after : Editor) : Prop :=
  after.text = t ∧ after.selection = selection

/-- The characters of `s` are replaced by `new`, and the selection is where that leaves it. -/
def Rewritten (t : Text) (selection s : Span) (new : Text) (after : Editor) : Prop :=
  after.text = t.replace s new ∧ adjustSelection selection s new.length = .ok after.selection

/-- The characters of `s` are deleted, if there are any. -/
def Cleared (t : Text) (selection s : Span) (after : Editor) : Prop :=
  if s.isEmpty then Unchanged t selection after else Rewritten t selection s [] after

/-- A replacement is written in place of `s`, if there is one. -/
def Replaced (new? : Option Text) (t : Text) (selection s : Span) (after : Editor) : Prop :=
  match new? with
  | some new => Rewritten t selection s new after
  | none => Unchanged t selection after

/-- What a command writes in place of the text of its target, if it writes there. -/
def replacement? (c : Command) (host : Host) (matched : Text) : Option Text :=
  match c.kind with
  | .replace => some (c.insertText.getD [])
  | .replaceWithLambda => host.lambda?.map fun f => f matched
  | .replaceWordMatchCase => some ((Capitalization.guess matched).apply (c.insertText.getD []))
  | .nextHomophone =>
    (host.env.lookup.next? matched.lowercase).map (Capitalization.guess matched).apply
  | .titleCase => some (matched.titleCase host.env.settings.minorWords)
  | .lowercase => some matched.lowerChars
  | .uppercase => some matched.upperChars
  | _ => none

/-- What a command on `target` makes of a text, its selection and an empty clipboard. -/
def NetEffect (c : Command) (host : Host) (t : Text) (selection : Span) (target : Target)
    (after : Editor) (clip : Option Text) : Prop :=
  let s := target.span
  let matched := t.slice s
  match c.kind with
  | .select => Unchanged t s after ∧ clip = none
  | .moveCursorBefore => Unchanged t (.point s.start) after ∧ clip = none
  | .moveCursorAfter => Unchanged t (.point s.stop) after ∧ clip = none
  | .clearMoveCursor =>
    after.text = t.replace s [] ∧ after.selection = .point s.start ∧ clip = none
  | .clearNoMove => Cleared t selection target.removed after ∧ clip = none
  | .cutToClipboard => Cleared t selection target.removed after ∧ clip = some matched
  | .copyToClipboard => Unchanged t selection after ∧ clip = some matched
  | .bring =>
    after.text = t.replace selection matched ∧
      after.selection = .point (selection.start + matched.length) ∧ clip = none
  | .replace | .replaceWordMatchCase | .nextHomophone | .titleCase | .lowercase | .uppercase
  | .replaceWithLambda =>
    Replaced (c.replacement? host matched) t selection s after ∧ clip = none

/-! ## Rewriting edits -/

variable {e : Editor} {s : Span} {edits : List Edit}

/-- The last edit of a rewrite, left out when the cursor is there already. -/
theorem performAll_back (clip : Option Text) {a : Span} (h : a.stop ≤ e.text.length) :
    ∃ after, e.performAll clip (if a = e.selection then [] else [.select a]) = (after, .ok clip) ∧
      after.text = e.text ∧ after.selection = a := by
  by_cases ha : a = e.selection
  · rw [if_pos ha]
    exact ⟨e, rfl, rfl, ha.symm⟩
  · rw [if_neg ha, Editor.performAll_cons (.select a) clip [] h]
    exact ⟨e.select a, rfl, rfl, rfl⟩

/-- Selecting a span, typing over it and putting the selection back rewrites the span. -/
theorem performAll_replaceEdits (clip : Option Text) {new : Text} (he : e.Anchored)
    (hs : s.stop ≤ e.text.length) (h : replaceEdits e.selection s new = .ok edits) :
    ∃ after, e.performAll clip edits = (after, .ok clip) ∧
      Rewritten e.text e.selection s new after := by
  obtain ⟨a, ha, h⟩ := bind_eq_ok.1 h
  rw [mapError_eq_ok] at ha
  cases h
  have hback : a.stop ≤ ((e.select s).edited (.insert new)).text.length :=
    adjustSelection_within new ha he hs
  obtain ⟨after, hrun, htext, hsel⟩ := performAll_back clip hback
  refine ⟨after, ?_, htext, by rw [ha, hsel]⟩
  rw [List.cons_append, Editor.performAll_cons (.select s) clip _ hs, List.cons_append,
    Editor.performAll_cons (e := e.edited (.select s)) (.insert new) _ _ hs]
  exact hrun

/-- Deleting a span and putting the selection back clears the span. -/
theorem performAll_clearEdits (clip : Option Text) (he : e.Anchored)
    (hs : s.stop ≤ e.text.length) (h : clearEdits e.selection s = .ok edits) :
    ∃ after, e.performAll clip edits = (after, .ok clip) ∧
      Cleared e.text e.selection s after := by
  unfold clearEdits at h
  unfold Cleared
  by_cases hempty : s.isEmpty = true
  · rw [if_pos hempty] at h
    cases h
    exact ⟨e, rfl, by rw [if_pos hempty]; exact ⟨rfl, rfl⟩⟩
  · rw [if_neg hempty] at h
    obtain ⟨a, ha, h⟩ := bind_eq_ok.1 h
    rw [mapError_eq_ok] at ha
    cases h
    have hback : a.stop ≤ (e.edited (.delete s)).text.length :=
      adjustSelection_within [] ha he hs
    obtain ⟨after, hrun, htext, hsel⟩ := performAll_back clip hback
    refine ⟨after, ?_, ?_⟩
    · rw [Editor.performAll_cons (.delete s) clip _ hs]
      exact hrun
    · rw [if_neg hempty]
      exact ⟨htext, by rw [List.length_nil, ha, hsel]⟩

/-- Deleting a span that was selected before leaves the cursor where it started. -/
theorem performAll_clear (clip : Option Text) (hs : s.stop ≤ e.text.length) :
    ∃ after, e.performAll clip (.select s :: if s.isEmpty then [] else [.delete s]) =
        (after, .ok clip) ∧
      after.text = e.text.replace s [] ∧ after.selection = .point s.start := by
  rw [Editor.performAll_cons (.select s) clip _ hs]
  by_cases hempty : s.isEmpty = true
  · have hstart := Span.isEmpty_iff.1 hempty
    rw [if_pos hempty]
    exact ⟨_, rfl, (e.text.replace_empty hstart).symm, Span.ext rfl hstart.symm⟩
  · rw [if_neg hempty, Editor.performAll_cons (e := e.edited (.select s)) (.delete s) _ _ hs]
    exact ⟨_, rfl, rfl, rfl⟩

/-- Typing in place of the selection, which is deleted first if it holds characters. -/
theorem performAll_bring (clip : Option Text) {new : Text} (he : e.Anchored) :
    ∃ after, e.performAll clip
        ((if e.selection.isEmpty then [] else [.delete e.selection]) ++ [.insert new]) =
        (after, .ok clip) ∧
      after.text = e.text.replace e.selection new ∧
      after.selection = .point (e.selection.start + new.length) := by
  by_cases hempty : e.selection.isEmpty = true
  · rw [if_pos hempty, List.nil_append, Editor.performAll_cons (.insert new) clip _ he]
    exact ⟨_, rfl, rfl, rfl⟩
  · -- The deletion leaves a cursor, which types in reach of the text.
    have hreach : (e.edited (.delete e.selection)).Anchored :=
      Editor.anchored_edited (.delete e.selection) he he
    rw [if_neg hempty, List.cons_append, Editor.performAll_cons (.delete _) clip _ he,
      List.nil_append, Editor.performAll_cons (.insert new) _ _ hreach]
    exact ⟨_, rfl, e.text.replace_point_start he new, rfl⟩

/-! ## Commands -/

variable {c : Command} {host : Host} {target : Target}

/-- Moving the selection changes nothing else. -/
theorem run_select (h : s.stop ≤ e.text.length) :
    ∃ after, e.run [.select s] = (after, .ok none) ∧ Unchanged e.text s after :=
  ⟨e.select s, Editor.performAll_cons (.select s) none [] h, rfl, rfl⟩

/-- A command that writes a replacement answers with the edits that rewrite its target. -/
theorem perform_of_replacement? {t new : Text} (selection : Span) (hs : target.span.stop ≤ t.length)
    (hnew : c.replacement? host (t.slice target.span) = some new) :
    c.perform host t selection target = replaceEdits selection target.span new := by
  rw [perform, Text.extract_eq_ok _ hs, ok_mapError_bind]
  revert hnew
  unfold replacement?
  cases c.kind with
  | replaceWithLambda =>
    intro hnew
    obtain ⟨f, hf, rfl⟩ := Option.map_eq_some_iff.1 hnew
    rw [hf]
  | nextHomophone =>
    intro hnew
    obtain ⟨word, hword, rfl⟩ := Option.map_eq_some_iff.1 hnew
    rw [hword]
  | replace | replaceWordMatchCase | titleCase | lowercase | uppercase =>
    intro hnew
    cases hnew
    rfl
  | select | clearMoveCursor | clearNoMove | moveCursorBefore | moveCursorAfter | cutToClipboard
  | copyToClipboard | bring =>
    intro hnew
    cases hnew

/-- A command that writes a replacement replaces its target by it. -/
theorem run_replaceEdits {new : Text} (he : e.Anchored) (hs : s.stop ≤ e.text.length)
    (hnew : c.replacement? host (e.text.slice s) = some new)
    (h : replaceEdits e.selection s new = .ok edits) :
    ∃ after clip, e.run edits = (after, .ok clip) ∧
      Replaced (c.replacement? host (e.text.slice s)) e.text e.selection s after ∧ clip = none := by
  obtain ⟨after, hrun, heffect⟩ := performAll_replaceEdits none he hs h
  rw [hnew]
  exact ⟨after, none, hrun, heffect, rfl⟩

/-- Whatever a command answers can be carried out, and has its net effect. -/
theorem run_perform (he : e.Anchored) (hr : target.Within e.text)
    (h : c.perform host e.text e.selection target = .ok edits) :
    ∃ after clip, e.run edits = (after, .ok clip) ∧
      NetEffect c host e.text e.selection target after clip := by
  have hs := hr.span_stop_le
  have hle := target.span.start_le_stop
  obtain ⟨matched, hm, h⟩ := bind_eq_ok.1 h
  rw [mapError_eq_ok, Text.extract_eq_ok _ hs] at hm
  cases hm
  unfold NetEffect
  revert h
  cases hk : c.kind with
  | select =>
    intro h
    cases h
    obtain ⟨after, hrun, heffect⟩ := run_select hs
    exact ⟨after, none, hrun, heffect, rfl⟩
  | moveCursorBefore =>
    intro h
    cases h
    obtain ⟨after, hrun, heffect⟩ := run_select (s := .point target.span.start) (Nat.le_trans hle hs)
    exact ⟨after, none, hrun, heffect, rfl⟩
  | moveCursorAfter =>
    intro h
    cases h
    obtain ⟨after, hrun, heffect⟩ := run_select (s := .point target.span.stop) hs
    exact ⟨after, none, hrun, heffect, rfl⟩
  | clearMoveCursor =>
    intro h
    cases h
    obtain ⟨after, hrun, htext, hsel⟩ := performAll_clear none hs
    exact ⟨after, none, hrun, htext, hsel, rfl⟩
  | clearNoMove =>
    intro h
    obtain ⟨after, hrun, heffect⟩ := performAll_clearEdits none he hr h
    exact ⟨after, none, hrun, heffect, rfl⟩
  | cutToClipboard =>
    intro h
    obtain ⟨more, hc, h⟩ := bind_eq_ok.1 h
    cases h
    obtain ⟨after, hrun, heffect⟩ :=
      performAll_clearEdits (some (e.text.slice target.span)) he hr hc
    exact ⟨after, _, hrun, heffect, rfl⟩
  | copyToClipboard =>
    intro h
    cases h
    exact ⟨e, _, rfl, ⟨rfl, rfl⟩, rfl⟩
  | bring =>
    intro h
    cases h
    obtain ⟨after, hrun, htext, hsel⟩ := performAll_bring none he
    exact ⟨after, none, hrun, htext, hsel, rfl⟩
  | replaceWithLambda =>
    intro h
    cases hf : host.lambda? with
    | none =>
      rw [hf] at h
      cases h
    | some f =>
      rw [hf] at h
      exact run_replaceEdits he hs (by simp only [replacement?, hk, hf, Option.map_some]) h
  | nextHomophone =>
    intro h
    cases hn : host.env.lookup.next? (e.text.slice target.span).lowercase with
    | none =>
      rw [hn] at h
      cases h
      refine ⟨e, none, rfl, ?_, rfl⟩
      simp only [replacement?, hk, hn, Option.map_none]
      exact ⟨rfl, rfl⟩
    | some word =>
      rw [hn] at h
      exact run_replaceEdits he hs (by simp only [replacement?, hk, hn, Option.map_some]) h
  | replace | replaceWordMatchCase | titleCase | lowercase | uppercase =>
    intro h
    exact run_replaceEdits he hs (by simp only [replacement?, hk]) h

/-- **Net effect.** On a text and a selection in it, the edits of a command on a target
in the text succeed, and leave what the kind of the command says. -/
theorem perform_netEffect (c : Command) (host : Host) (t : Text) (selection : Span)
    (target : Target) (edits : List Edit) (hs : selection.stop ≤ t.length)
    (hr : target.removed.stop ≤ t.length)
    (h : c.perform host t selection target = .ok edits) :
    ∃ after clip, ({ text := t, selection } : Editor).run edits = (after, .ok clip) ∧
      NetEffect c host t selection target after clip :=
  run_perform (e := { text := t, selection }) hs hr h

/-- The word before the selection is replaced by a longer one, cut with the blank behind it, and
respelled: each time the selection moves along with the text. -/
theorem perform_netEffect_word :
    let homophones := Homophones.ofGroups [[['t', 'o'], ['t', 'w', 'o']]]
    let host : Host := ⟨⟨Settings.default, homophones.lookup⟩, none⟩
    let t : Text := ['T', 'w', 'o', ' ', 's', 'a', 't']
    let selection : Span := ⟨4, 7, by decide, by decide⟩
    let word : Span := ⟨0, 3, by decide, by decide⟩
    let parted : Target := ⟨word, some ⟨0, 4, by decide, by decide⟩, by decide⟩
    let replace : Command := { kind := .replace, insertText := some ['t', 'i', 'g', 'e', 'r'] }
    let cut : Command := { kind := .cutToClipboard }
    let respell : Command := { kind := .nextHomophone }
    let e : Editor := { text := t, selection }
    let replacing : List Edit :=
      [.select word, .insert ['t', 'i', 'g', 'e', 'r'], .select ⟨6, 9, by decide, by decide⟩]
    let cutting : List Edit :=
      [.setClipboard true ['T', 'w', 'o'], .delete ⟨0, 4, by decide, by decide⟩,
        .select ⟨0, 3, by decide, by decide⟩]
    let respelling : List Edit :=
      [.select word, .insert ['T', 'o'], .select ⟨3, 6, by decide, by decide⟩]
    selection.stop ≤ t.length ∧ (Target.ofSpan word).removed.stop ≤ t.length ∧
      parted.removed.stop ≤ t.length ∧
      replace.perform host t selection (.ofSpan word) = .ok replacing ∧
      cut.perform host t selection parted = .ok cutting ∧
      respell.perform host t selection (.ofSpan word) = .ok respelling ∧
      (∃ after clip, e.run replacing = (after, .ok clip) ∧
        NetEffect replace host t selection (.ofSpan word) after clip) ∧
      (∃ after clip, e.run cutting = (after, .ok clip) ∧
        NetEffect cut host t selection parted after clip) ∧
      ∃ after clip, e.run respelling = (after, .ok clip) ∧
        NetEffect respell host t selection (.ofSpan word) after clip := by
  intro homophones host t selection word parted replace cut respell e replacing cutting respelling
  have hs : selection.stop ≤ t.length := by decide
  have hword : (Target.ofSpan word).removed.stop ≤ t.length := by decide
  have hparted : parted.removed.stop ≤ t.length := by decide
  have hreplace : replace.perform host t selection (.ofSpan word) = .ok replacing := by rfl
  have hcut : cut.perform host t selection parted = .ok cutting := by rfl
  have hnext : respell.replacement? host (t.slice word) = some ['T', 'o'] := by decide +kernel
  have hrespell : respell.perform host t selection (.ofSpan word) = .ok respelling :=
    perform_of_replacement? selection hword hnext
  exact ⟨hs, hword, hparted, hreplace, hcut, hrespell,
    perform_netEffect replace host t selection (.ofSpan word) replacing hs hword hreplace,
    perform_netEffect cut host t selection parted cutting hs hparted hcut,
    perform_netEffect respell host t selection (.ofSpan word) respelling hs hword hrespell⟩

end VoiceEdit.Command
