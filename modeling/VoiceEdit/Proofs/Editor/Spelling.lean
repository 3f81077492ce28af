import VoiceEdit.Editor.Compile
import VoiceEdit.Proofs.Editor.Agreement

/-!
# Spelling edits out loses nothing

Keystrokes are compiled from an editor that is followed along, and pressed in another.
`Leads` says where a run of keys takes every editor that agrees with a given one, so
the runs the compiler puts together can be followed piece by piece: giving the
selection up, walking, growing a selection, deleting backwards.

Results:

* `leads_moveTo`, `leads_extend`, `leads_clear`: what each kind of run leads to.
* `ofEdit_eq_ok`, `ofEdit_eq_error`: the keys for one edit do what the edit does, and are
  refused where it fails.
* `ofEditsFrom_eq_ok`, `ofEditsFrom_eq_error`: the same for edits in order.
* `ofEdits_refines`: keystrokes exist exactly when the edits succeed, with the same
  error otherwise, and lead to the same text, selection and clipboard.
-/
namespace VoiceEdit.Editor

variable {e a b next : Editor} {clip clip' : Option Text} {keys : List Keystroke}

/-! ## Runs of keys -/

/-- Pressing `keys` leads from `e` to an editor that agrees with `next`. -/
def Leads (e : Editor) (clip : Option Text) (keys : List Keystroke) (next : Editor)
    (clip' : Option Text) : Prop :=
  ∃ k, e.pressAll clip keys = (k, .ok clip') ∧ k.Agrees next

theorem pressAll_append {more : List Keystroke} (h : e.pressAll clip keys = (next, .ok clip')) :
    e.pressAll clip (keys ++ more) = next.pressAll clip' more := by
  induction keys generalizing e clip with
  | nil => cases h; rfl
  | cons key keys ih =>
    simp only [List.cons_append, pressAll] at h ⊢
    cases hp : e.press key with
    | error err => rw [hp] at h; cases h
    | ok e₁ => rw [hp] at h; exact ih h

/-- Where a run leads depends only on what the editor shows. -/
theorem Leads.of_agrees (hab : a.Agrees b) (h : a.Leads clip keys next clip') :
    b.Leads clip keys next clip' := by
  induction keys generalizing a b clip with
  | nil =>
    obtain ⟨k, hk, hn⟩ := h
    cases hk
    exact ⟨b, rfl, hab.symm.trans hn⟩
  | cons key keys ih =>
    obtain ⟨k, hk, hn⟩ := h
    simp only [pressAll] at hk
    have hr := press_agrees hab key
    cases ha : a.press key with
    | error err => rw [ha] at hk; cases hk
    | ok a₁ =>
      rw [ha] at hk hr
      generalize hb : b.press key = r at hr
      cases hr with
      | ok h₁ =>
        obtain ⟨k', hk', hn'⟩ := ih h₁ ⟨k, hk, hn⟩
        exact ⟨k', by simp only [pressAll, hb, hk'], hn'⟩

theorem Leads.trans {more : List Keystroke} {clip'' : Option Text} {last : Editor}
    (h₁ : e.Leads clip keys next clip') (h₂ : next.Leads clip' more last clip'') :
    e.Leads clip (keys ++ more) last clip'' := by
  obtain ⟨k, hk, hn⟩ := h₁
  obtain ⟨k', hk', hl⟩ := h₂.of_agrees hn.symm
  exact ⟨k', by rw [pressAll_append hk, hk'], hl⟩

theorem Leads.to_agrees {next' : Editor} (h : e.Leads clip keys next clip')
    (hn : next.Agrees next') : e.Leads clip keys next' clip' := by
  obtain ⟨k, hk, ha⟩ := h
  exact ⟨k, hk, ha.trans hn⟩

/-- Pressing nothing leads to where the editor is. -/
theorem leads_nil (h : e.Agrees next) : e.Leads clip [] next clip := ⟨e, rfl, h⟩

theorem leads_single (key : Keystroke) (clip : Option Text) (h : e.press key = .ok next) :
    e.Leads clip [key] next (clipboardAfterKey clip key) :=
  ⟨next, by simp only [pressAll, h], .refl next⟩

/-! ## Walking -/

/-- Giving the selection up leaves a cursor at one of its edges. -/
theorem leads_collapse (side : CollapseSide) (e : Editor) :
    e.Leads clip (Keystroke.collapse side e.selection).1
      (e.moveTo (Keystroke.collapse side e.selection).2) clip := by
  unfold Keystroke.collapse
  by_cases hempty : e.selection.isEmpty = true
  · rw [if_pos hempty]
    have hs := Span.isEmpty_iff.1 hempty
    exact leads_nil ⟨rfl, Span.ext rfl hs.symm⟩
  · rw [if_neg hempty]
    cases side with
    | left =>
      have hp : e.press (.go .left) = .ok (e.moveTo e.selection.start) := by
        simp only [press, Arrow.target, if_neg hempty]; rfl
      exact leads_single _ clip hp
    | right =>
      have hp : e.press (.go .right) = .ok (e.moveTo e.selection.stop) := by
        simp only [press, Arrow.target, if_neg hempty]; rfl
      exact leads_single _ clip hp

theorem press_left (e : Editor) (pos : Nat) :
    (e.moveTo (pos + 1)).press (.go .left) = .ok (e.moveTo pos) := by
  simp only [press, Arrow.target, moveTo, Span.isEmpty_point, if_true, Span.start_point,
    Nat.add_sub_cancel]
  rfl

theorem press_right {e : Editor} {pos : Nat} (h : pos < e.text.length) :
    (e.moveTo pos).press (.go .right) = .ok (e.moveTo (pos + 1)) := by
  simp only [press, Arrow.target, moveTo, Span.isEmpty_point, if_true, Span.stop_point,
    Nat.min_eq_left (Nat.succ_le_of_lt h)]
  rfl

theorem leads_left (clip : Option Text) (e : Editor) (target n : Nat) :
    (e.moveTo (target + n)).Leads clip (List.replicate n (.go .left)) (e.moveTo target) clip := by
  induction n with
  | zero => exact leads_nil (.refl _)
  | succ n ih => exact (leads_single _ clip (press_left e (target + n))).trans ih

theorem leads_right (clip : Option Text) (e : Editor) (pos n : Nat) (h : pos + n ≤ e.text.length) :
    (e.moveTo pos).Leads clip (List.replicate n (.go .right)) (e.moveTo (pos + n)) clip := by
  induction n generalizing pos with
  | zero => exact leads_nil (.refl _)
  | succ n ih =>
    have hn := ih (pos + 1) (by omega)
    rw [show pos + 1 + n = pos + (n + 1) by omega] at hn
    exact (leads_single _ clip (press_right (by omega))).trans hn

theorem leads_arrowRun (e : Editor) {pos target : Nat} (ht : target ≤ e.text.length) :
    (e.moveTo pos).Leads clip (Keystroke.arrowRun pos target) (e.moveTo target) clip := by
  unfold Keystroke.arrowRun
  split
  · have hl := leads_left clip e target (pos - target)
    rwa [show target + (pos - target) = pos by omega] at hl
  · have hr := leads_right clip e pos (target - pos) (by omega)
    rwa [show pos + (target - pos) = target by omega] at hr

/-- From any selection the walk to a place in the text ends there. -/
theorem leads_moveTo (side : CollapseSide) (e : Editor) {target : Nat}
    (ht : target ≤ e.text.length) :
    e.Leads clip (Keystroke.moveTo side e.selection target) (e.moveTo target) clip :=
  (leads_collapse side e).trans (leads_arrowRun e ht)

/-! ## Growing a selection -/

theorem leads_extend (clip : Option Text) {s : Span} {n : Nat} (hs : e.selection.start = s.start)
    (hn : e.selection.stop + n = s.stop) (hl : s.stop ≤ e.text.length) :
    e.Leads clip (List.replicate n .extendRight) (e.select s) clip := by
  induction n generalizing e with
  | zero => exact leads_nil ⟨rfl, Span.ext hs hn⟩
  | succ n ih =>
    have hle := e.selection.start_le_stop
    have hlimit := s.stop_le_limit (by omega)
    have hb : Span.ofBounds e.selection.start (min (e.selection.stop + 1) e.text.length) =
        .ok ⟨e.selection.start, e.selection.stop + 1, by omega, by omega⟩ := by
      rw [Nat.min_eq_left (by omega)]
      exact Span.ofBounds_eq_ok (by omega) (by omega)
    have hp := leads_single (e := e) .extendRight clip (by simp only [press, hb]; rfl)
    have hmore := ih (e := e.select ⟨e.selection.start, e.selection.stop + 1, by omega, by omega⟩)
      hs (by simp only [select]; omega) hl
    exact hp.trans (hmore.to_agrees ⟨rfl, rfl⟩)

/-! ## Deleting backwards -/

theorem leads_clear (clip : Option Text) {s : Span} {n : Nat} (hn : s.start + n = s.stop)
    (hsel : e.selection = .point s.stop) (hl : s.stop ≤ e.text.length) :
    e.Leads clip (List.replicate n .clear) (e.edited (.delete s)) clip := by
  induction n generalizing e s with
  | zero =>
    have hs : s.start = s.stop := hn
    exact leads_nil ⟨(e.text.replace_empty hs).symm, by rw [hsel, ← hs]; rfl⟩
  | succ n ih =>
    have hlimit := s.stop_le_limit (by omega)
    -- The last character of `s` goes first; `front` is what is left of `s`.
    obtain ⟨back, hback⟩ : ∃ r, Span.ofBounds (s.stop - 1) s.stop = .ok r :=
      ⟨_, Span.ofBounds_eq_ok (by omega) hlimit⟩
    obtain ⟨front, hfront⟩ : ∃ r, Span.ofBounds s.start (s.stop - 1) = .ok r :=
      ⟨_, Span.ofBounds_eq_ok (by omega) (by omega)⟩
    obtain ⟨hb₁, hb₂, -⟩ := Span.ofBounds_eq_ok_iff.1 hback
    obtain ⟨hf₁, hf₂, -⟩ := Span.ofBounds_eq_ok_iff.1 hfront
    have hp : e.press .clear = .ok (e.edited (.delete back)) := by
      have hpos : 0 < s.stop := by omega
      simp only [press, hsel, Span.isEmpty_point, Bool.not_true, Bool.false_eq_true, if_false,
        Span.start_point, if_pos hpos, hback]
      exact perform_eq_ok (.delete back) (by simp only [reach]; omega)
    have hlen := e.text.length_replace (s := back) (by omega) []
    have hmore := ih (e := e.edited (.delete back)) (s := front) (by omega)
      (by simp only [edited]; congr 1; omega)
      (by simp only [edited, Span.length, List.length_nil] at hlen ⊢; omega)
    refine (leads_single _ clip hp).trans (hmore.to_agrees ⟨?_, ?_⟩)
    · exact e.text.replace_back_front hf₁ (hf₂.trans hb₁.symm) hb₂ hl
    · simp only [edited, hf₁]

/-! ## One edit -/

/-- An edit that fails is refused with its error. -/
theorem ofEdit_eq_error {edit : Edit} {err : Error} (side : CollapseSide)
    (h : e.perform edit = .error err) : Keystroke.ofEdit side e edit = .error err := by
  simp only [Keystroke.ofEdit, h]
  rfl

/-- An edit within reach is spelt out, and its keys do what it does. -/
theorem ofEdit_eq_ok {edit : Edit} (side : CollapseSide) (h : e.reach edit ≤ e.text.length) :
    ∃ keys next, Keystroke.ofEdit side e edit = .ok (keys, next) ∧ next.Agrees (e.edited edit) ∧
      ∀ clip, e.Leads clip keys (e.edited edit) (clipboardAfter clip edit) := by
  simp only [Keystroke.ofEdit, perform_eq_ok edit h]
  cases edit with
  | select s =>
    simp only [reach] at h
    have hs := s.start_le_stop
    by_cases hsel : s = e.selection
    · have hagree : e.Agrees (e.edited (.select s)) := ⟨rfl, hsel.symm⟩
      exact ⟨[], e, if_pos hsel, hagree, fun _ => leads_nil hagree⟩
    · refine ⟨_, _, if_neg hsel, .refl _, fun clip => ?_⟩
      have hgrow := leads_extend clip (e := e.moveTo s.start) (s := s) (n := s.length)
        rfl (by simp only [moveTo, Span.stop_point, Span.length]; omega) h
      exact (leads_moveTo side e (by omega)).trans (hgrow.to_agrees ⟨rfl, rfl⟩)
  | insert text => exact ⟨[.insert text], _, rfl, .refl _, fun clip => leads_single _ clip rfl⟩
  | setClipboard history text =>
    exact ⟨[.setClipboard history text], _, rfl, .refl _, fun clip => leads_single _ clip rfl⟩
  | delete s =>
    simp only [reach] at h
    have hs := s.start_le_stop
    by_cases hempty : s.isEmpty = true
    · refine ⟨_, _, if_pos hempty, .refl _, fun clip => ?_⟩
      have hkeep := e.text.replace_empty (Span.isEmpty_iff.1 hempty)
      exact (leads_moveTo side e (by omega)).to_agrees ⟨hkeep.symm, rfl⟩
    · simp only [if_neg hempty]
      by_cases hsel : s = e.selection
      · subst hsel
        refine ⟨_, _, if_pos rfl, .refl _, fun clip => leads_single _ clip ?_⟩
        simp only [press, hempty, Bool.not_false, if_true]
        exact perform_eq_ok (.delete e.selection) h
      · refine ⟨_, _, if_neg hsel, .refl _, fun clip => ?_⟩
        have hclear := leads_clear clip (e := e.moveTo s.stop) (s := s) (n := s.length)
          (by simp only [Span.length]; omega) rfl h
        exact (leads_moveTo side e h).trans (hclear.to_agrees ⟨rfl, rfl⟩)

/-! ## Edits in order -/

/-- The compiler's editor `e` and the host's editor `d` agree all along, so edits that
fail in the one are refused in the other. -/
theorem ofEditsFrom_eq_error {d after : Editor} {err : Error} {edits : List Edit}
    (side : CollapseSide) (hd : d.Agrees e) (h : d.performAll clip edits = (after, .error err)) :
    Keystroke.ofEditsFrom side e edits = .error err := by
  induction edits generalizing d e clip with
  | nil => cases h
  | cons edit edits ih =>
    simp only [performAll] at h
    have hr := perform_agrees hd edit
    cases hp : d.perform edit with
    | error err' =>
      rw [hp] at h hr
      cases h
      generalize he : e.perform edit = r at hr
      cases hr with
      | error _ => simp only [Keystroke.ofEditsFrom, ofEdit_eq_error side he]; rfl
    | ok d₁ =>
      rw [hp] at h hr
      generalize he : e.perform edit = r at hr
      cases hr with
      | ok h₁ =>
        obtain ⟨hreach, rfl⟩ := perform_eq_ok_iff.1 he
        obtain ⟨keys, next, hk, hnext, -⟩ := ofEdit_eq_ok side hreach
        simp only [Keystroke.ofEditsFrom, hk]
        have hrest := ih (h₁.trans hnext.symm) h
        show (do let more ← Keystroke.ofEditsFrom side next edits; pure (keys ++ more)) = _
        rw [hrest]
        rfl

/-- Edits that succeed are spelt out, and the keys lead to where the edits lead. -/
theorem ofEditsFrom_eq_ok {d after : Editor} {edits : List Edit} (side : CollapseSide)
    (hd : d.Agrees e) (h : d.performAll clip edits = (after, .ok clip')) :
    ∃ keys, Keystroke.ofEditsFrom side e edits = .ok keys ∧ e.Leads clip keys after clip' := by
  induction edits generalizing d e clip with
  | nil =>
    cases h
    exact ⟨[], rfl, leads_nil hd.symm⟩
  | cons edit edits ih =>
    simp only [performAll] at h
    have hr := perform_agrees hd edit
    cases hp : d.perform edit with
    | error err' => rw [hp] at h; cases h
    | ok d₁ =>
      rw [hp] at h hr
      generalize he : e.perform edit = r at hr
      cases hr with
      | ok h₁ =>
        obtain ⟨hreach, rfl⟩ := perform_eq_ok_iff.1 he
        obtain ⟨keys, next, hk, hnext, hleads⟩ := ofEdit_eq_ok side hreach
        obtain ⟨more, hmore, hrest⟩ := ih (h₁.trans hnext.symm) h
        refine ⟨keys ++ more, ?_, ((hleads clip).to_agrees hnext.symm).trans hrest⟩
        simp only [Keystroke.ofEditsFrom, hk]
        show (do let more ← Keystroke.ofEditsFrom side next edits; pure (keys ++ more)) = _
        rw [hmore]
        rfl

/-! ## Both ways of carrying edits out -/

/-- The compiler starts from what the editor shows. -/
theorem agrees_shown (e : Editor) : e.Agrees { text := e.text, selection := e.selection } :=
  ⟨rfl, rfl⟩

theorem ofEdits_eq (side : CollapseSide) (h : e.Anchored) (edits : List Edit) :
    Keystroke.ofEdits side e.text e.selection edits =
      Keystroke.ofEditsFrom side { text := e.text, selection := e.selection } edits := by
  have hc : checkSelection { text := e.text, selection := e.selection } e.selection = .ok () :=
    checkSelection_eq_ok_iff.2 h
  simp only [Keystroke.ofEdits, hc]
  rfl

/-- Edits that fail are not spelt out. -/
theorem ofEdits_eq_error {after : Editor} {err : Error} {edits : List Edit} (side : CollapseSide)
    (ha : e.Anchored) (h : e.run edits = (after, .error err)) :
    Keystroke.ofEdits side e.text e.selection edits = .error err := by
  rw [ofEdits_eq side ha]
  exact ofEditsFrom_eq_error side (agrees_shown e) h

/-- Edits that succeed are spelt out, and pressing the keys shows what they show. -/
theorem ofEdits_eq_ok {after : Editor} {edits : List Edit} (side : CollapseSide)
    (ha : e.Anchored) (h : e.run edits = (after, .ok clip)) :
    ∃ keys pressed, Keystroke.ofEdits side e.text e.selection edits = .ok keys ∧
      e.runKeys keys = (pressed, .ok clip) ∧ pressed.Agrees after := by
  obtain ⟨keys, hkeys, hleads⟩ := ofEditsFrom_eq_ok side (agrees_shown e) h
  obtain ⟨k, hk, hagree⟩ := hleads.of_agrees (agrees_shown e).symm
  refine ⟨keys, k, by rw [ofEdits_eq side ha, hkeys], ?_, hagree⟩
  simp only [runKeys, checkSelection_eq_ok_iff.2 ha, hk]

/-- **Round trip.** Whatever the edits and the side selections collapse to: keystrokes
are refused exactly when the edits fail, with the same error, and otherwise pressing
them shows the text, the selection and the clipboard that the edits lead to. -/
theorem ofEdits_refines (side : CollapseSide) (e : Editor) (edits : List Edit)
    (h : e.selection.stop ≤ e.text.length) :
    (∀ err, Keystroke.ofEdits side e.text e.selection edits = .error err ↔
      (e.run edits).2 = .error err) ∧
    ∀ keys clip, Keystroke.ofEdits side e.text e.selection edits = .ok keys →
      (e.run edits).2 = .ok clip →
      (e.runKeys keys).2 = .ok clip ∧ (e.runKeys keys).1.text = (e.run edits).1.text ∧
        (e.runKeys keys).1.selection = (e.run edits).1.selection := by
  obtain ⟨⟨after, result⟩, hrun⟩ : ∃ r, e.run edits = r := ⟨_, rfl⟩
  rw [hrun]
  cases result with
  | error err =>
    rw [ofEdits_eq_error side h hrun]
    exact ⟨fun err' => by simp, fun keys clip hk => by cases hk⟩
  | ok clip =>
    obtain ⟨keys, pressed, hkeys, hpressed, hagree⟩ := ofEdits_eq_ok side h hrun
    rw [hkeys]
    refine ⟨fun err' => by simp, fun keys' clip' hk hc => ?_⟩
    cases hk
    cases hc
    rw [hpressed]
    exact ⟨rfl, hagree.1, hagree.2⟩

/-- A word is cut from before the selection and another typed there. -/
theorem ofEdits_refines_cut :
    let e : Editor :=
      { text := ['o', 'n', 'e', ' ', 't', 'w', 'o'], selection := ⟨4, 7, by decide, by decide⟩ }
    let edits : List Edit :=
      [.setClipboard true ['o', 'n', 'e'], .delete ⟨0, 3, by decide, by decide⟩,
        .insert ['2'], .select ⟨2, 5, by decide, by decide⟩]
    let keys : List Keystroke :=
      [.setClipboard true ['o', 'n', 'e'], .go .left, .go .left, .clear, .clear, .clear,
        .insert ['2'], .go .right, .extendRight, .extendRight, .extendRight]
    e.selection.stop ≤ e.text.length ∧
      Keystroke.ofEdits .left e.text e.selection edits = .ok keys ∧
      (e.runKeys keys).2 = .ok (some ['o', 'n', 'e']) ∧
      (e.runKeys keys).1.text = ['2', ' ', 't', 'w', 'o'] ∧
      (e.runKeys keys).1.selection = ⟨2, 5, by decide, by decide⟩ := by
  intro e edits keys
  have h : e.selection.stop ≤ e.text.length := by decide
  have hkeys : Keystroke.ofEdits .left e.text e.selection edits = .ok keys := by rfl
  have hrun : (e.run edits).2 = .ok (some ['o', 'n', 'e']) := by rfl
  exact ⟨h, hkeys, (ofEdits_refines .left e edits h).2 keys _ hkeys hrun⟩

end VoiceEdit.Editor
