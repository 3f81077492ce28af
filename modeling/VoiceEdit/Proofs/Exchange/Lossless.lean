import VoiceEdit.Exchange.Command
import VoiceEdit.Exchange.Edit
import VoiceEdit.Exchange.Settings
import VoiceEdit.Proofs.Yields

/-!
# Exchange loses nothing

A host and the library exchange values as JSON. `Lossless` says of a writer and a reader that
the reader takes back what the writer made of every valid value, and that whatever it takes,
in the form the writer gives it or in any other, is a valid value. So what was read can be
passed on and is read as the same again.

Results:

* `valid_of_spanOf`, `valid_of_targetOf`, `valid_of_editOf`: what a value is that was read.
* `exchange_lossless`: the types that are exchanged.
-/
namespace VoiceEdit

/-- A span as it can be built from its bounds. -/
def Span.Valid (s : Span) : Prop := s.start ≤ s.stop ∧ s.stop ≤ Span.limit

/-- A target of such spans, what it removes around what it selects. -/
def Target.Valid (t : Target) : Prop :=
  t.span.Valid ∧ ∀ r ∈ t.removal, r.Valid ∧ r.contains t.span = true

/-- An edit whose span, if it has one, can be built from its bounds. -/
def Edit.Valid (e : Edit) : Prop := ∀ s ∈ e.span?, s.Valid

theorem Target.Valid.removed_stop_le {t : Target} (h : t.Valid) : t.removed.stop ≤ Span.limit := by
  unfold Target.removed
  cases hr : t.removal with
  | none => exact h.1.2
  | some r => exact (h.2 r hr).1.2

namespace Exchange

variable {α : Type} {j : Json} {a : α}

/-- Every valid value is read back as it was written, and so is every value that was read,
which is a valid one. -/
structure Lossless (write : α → Json) (read : Json → Result α) (valid : α → Prop) : Prop where
  read_write : ∀ a, valid a → read (write a) = .ok a
  valid_of_read : ∀ j a, read j = .ok a → valid a
  reread : ∀ j a, read j = .ok a → read (write a) = .ok a

theorem lossless_of_valid {write : α → Json} {read : Json → Result α} {valid : α → Prop}
    (hwrite : ∀ a, valid a → read (write a) = .ok a) (hread : ∀ j a, read j = .ok a → valid a) :
    Lossless write read valid :=
  ⟨hwrite, hread, fun j a h => hwrite a (hread j a h)⟩

/-- Where every value can be written, nothing is to be said of those that are read. -/
theorem lossless_of_all {write : α → Json} {read : Json → Result α}
    (hwrite : ∀ a, read (write a) = .ok a) : Lossless write read fun _ => True :=
  lossless_of_valid (fun a _ => hwrite a) fun _ _ _ => trivial

/-! ## What the fields of a record were read from -/

variable {fields : List (String × Json)} {name : String} {read : Json → Result α}

theorem exists_of_required (h : required fields name read = .ok a) : ∃ j, read j = .ok a := by
  unfold required at h
  split at h
  · exact ⟨_, h⟩
  · cases h

theorem exists_of_optional {missing : α} (h : optional fields name read missing = .ok a) :
    a = missing ∨ ∃ j, read j = .ok a := by
  unfold optional at h
  split at h
  · exact .inr ⟨_, h⟩
  · cases h
    exact .inl rfl

theorem exists_of_asOption {o : Option α} (h : asOption read j = .ok o) (ha : a ∈ o) :
    ∃ j, read j = .ok a := by
  unfold asOption at h
  split at h
  · cases h
    cases ha
  · obtain ⟨a', hread, rfl⟩ := map_eq_ok.1 h
    cases ha
    exact ⟨_, hread⟩

theorem exists_of_single (h : single name read j = .ok a) : ∃ j, read j = .ok a := by
  obtain ⟨fields, -, h⟩ := bind_eq_ok.1 h
  obtain ⟨a', hread, h⟩ := bind_eq_ok.1 h
  obtain ⟨_, -, h⟩ := bind_eq_ok.1 h
  cases h
  exact exists_of_required hread

/-! ## Spans, targets and edits -/

theorem valid_of_spanOf {s : Span} (h : spanOf j = .ok s) : s.Valid :=
  ⟨s.start_le_stop, le_of_spanOf h⟩

theorem valid_of_targetParts {s : Span} {removal : Option Span}
    (h : targetParts fields j = .ok (s, removal)) : s.Valid ∧ ∀ r ∈ removal, r.Valid := by
  have hspan (h : required fields "text_range" spanOf = .ok s) : s.Valid := by
    obtain ⟨j', hread⟩ := exists_of_required h
    exact valid_of_spanOf hread
  have hremoval (h : optional fields "deletion_range" (asOption spanOf) none = .ok removal) :
      ∀ r ∈ removal, r.Valid := by
    intro r hr
    rcases exists_of_optional h with rfl | ⟨j', hread⟩
    · cases hr
    · obtain ⟨j'', hread'⟩ := exists_of_asOption hread hr
      exact valid_of_spanOf hread'
  -- Both ways of reading the parts read the same two fields, in either order.
  unfold targetParts at h
  split at h
  · obtain ⟨s', hs, h⟩ := bind_eq_ok.1 h
    obtain ⟨removal', hr, h⟩ := bind_eq_ok.1 h
    cases h
    exact ⟨hspan hs, hremoval hr⟩
  · obtain ⟨removal', hr, h⟩ := bind_eq_ok.1 h
    obtain ⟨s', hs, h⟩ := bind_eq_ok.1 h
    cases h
    exact ⟨hspan hs, hremoval hr⟩

theorem valid_of_targetOf {t : Target} (h : targetOf j = .ok t) : t.Valid := by
  obtain ⟨fields, -, h⟩ := bind_eq_ok.1 h
  obtain ⟨⟨s, removal⟩, hparts, h⟩ := bind_eq_ok.1 h
  obtain ⟨_, -, h⟩ := bind_eq_ok.1 h
  obtain ⟨rfl, rfl⟩ := Target.withRemoval?_eq_ok_iff.1 (mapError_eq_ok.1 h)
  obtain ⟨hspan, hremoval⟩ := valid_of_targetParts hparts
  exact ⟨hspan, fun r hr => ⟨hremoval r hr, t.span_in_removal r hr⟩⟩

theorem valid_of_editOf {e : Edit} (h : editOf j = .ok e) : e.Valid := by
  obtain ⟨⟨tag, body⟩, -, h⟩ := bind_eq_ok.1 h
  have hspan {make : Span → Edit} (hmake : ∀ s, (make s).span? = some s)
      (h : make <$> single "text_range" spanOf body = .ok e) : e.Valid := by
    obtain ⟨s, hread, rfl⟩ := map_eq_ok.1 h
    obtain ⟨j', hread⟩ := exists_of_single hread
    intro s' hs'
    rw [hmake] at hs'
    cases hs'
    exact valid_of_spanOf hread
  have htext {make : Text → Edit} (hmake : ∀ t, (make t).span? = none)
      (h : make <$> single "text" asText body = .ok e) : e.Valid := by
    obtain ⟨t, -, rfl⟩ := map_eq_ok.1 h
    intro s' hs'
    rw [hmake] at hs'
    cases hs'
  simp only at h
  split at h
  · exact hspan (fun _ => rfl) h
  split at h
  · exact htext (fun _ => rfl) h
  split at h
  · exact htext (fun _ => rfl) h
  split at h
  · exact htext (fun _ => rfl) h
  split at h
  · exact hspan (fun _ => rfl) h
  · cases h

/-! ## The types that are exchanged -/

/-- **Lossless exchange.** Spans, targets and edits within the limit, and all modifiers,
commands, keystrokes, settings and modes, are read back as they were written. What is read as
a span, a target or an edit, from whatever JSON, has its bounds in order and within the limit,
and removes no less than it selects; and everything that is read is, when it is written, read
as the same again. -/
theorem exchange_lossless :
    Lossless ofSpan spanOf Span.Valid ∧ Lossless ofTarget targetOf Target.Valid ∧
      Lossless ofModifier modifierOf (fun _ => True) ∧
      Lossless ofCommand commandOf (fun _ => True) ∧ Lossless ofEdit editOf Edit.Valid ∧
      Lossless ofKeystroke keystrokeOf (fun _ => True) ∧
      Lossless ofSettings settingsOf (fun _ => True) ∧ Lossless ofMode modeOf (fun _ => True) := by
  refine ⟨?span, ?target, ?modifier, ?command, ?edit, ?keystroke, ?settings, ?mode⟩
  case span => exact lossless_of_valid (fun s hs => spanOf_ofSpan hs.2) fun _ _ => valid_of_spanOf
  case target =>
    exact lossless_of_valid (fun t ht => targetOf_ofTarget ht.removed_stop_le)
      fun _ _ => valid_of_targetOf
  case modifier => exact lossless_of_all modifierOf_ofModifier
  case command => exact lossless_of_all commandOf_ofCommand
  case edit =>
    exact lossless_of_valid (fun e he => editOf_ofEdit fun s hs => (he s hs).2)
      fun _ _ => valid_of_editOf
  case keystroke => exact lossless_of_all keystrokeOf_ofKeystroke
  case settings => exact lossless_of_all settingsOf_ofSettings
  case mode => exact lossless_of_all modeOf_ofMode

end Exchange

end VoiceEdit
