import VoiceEdit.Proofs.Modifier.Within

/-!
# Reaching to a second target

Where two targets lie to each other is decided by where they start, and the span from the one to the
other is then taken from an edge of each. So of two targets that share no character the span holds
both, unless one of them is a cursor that cuts the other: it then ends at the cursor, and leaves out
what stands behind. An excluded second target is left out, unless it goes beyond the first on both
sides: what is selected is then what it has behind the first.

Results:

* `Span.apart_iff`: where spans share no character.
* `Reach.exists_combine`: two targets in a text within the limit can be combined.
* `Reach.contains_iff_of_including`, `Reach.apart_iff_of_excluding`: when the span holds both targets,
  and when it leaves out the second.
* `Command.run_reaches`: what a command with a second target selects.
* `Command.run_reach_misses`: a cursor at the start of the first target, and a pair around it.
-/
namespace VoiceEdit

variable {a b s : Span}

/-! ## Spans -/

/-- The spans share no character. -/
def Span.Apart (a b : Span) : Prop := ∀ i, a.start ≤ i → i < a.stop → ¬(b.start ≤ i ∧ i < b.stop)

theorem Span.apart_iff : a.Apart b ↔ min a.stop b.stop ≤ max a.start b.start := by
  constructor
  · intro h
    refine Nat.le_of_not_lt fun hlt => ?_
    exact h (max a.start b.start) (by omega) (by omega) ⟨by omega, by omega⟩
  · rintro h i hi hlt ⟨hi', hlt'⟩
    omega

instance (a b : Span) : Decidable (a.Apart b) := decidable_of_iff _ Span.apart_iff.symm

/-- Between places within the limit there is a span, in whichever order they come. -/
theorem Span.exists_spanning {p q : Nat} (hp : p ≤ limit) (hq : q ≤ limit) :
    ∃ s, spanning p q = .ok s :=
  ⟨_, ofBounds_eq_ok (Nat.le_trans (Nat.min_le_left p q) (Nat.le_max_left p q)) (Nat.max_le.2 ⟨hp, hq⟩)⟩

/-! ## From one target to another -/

namespace Reach

/-- One of the targets is a cursor inside the other, or the second is one at the start of the first. -/
def Cut (a b : Span) : Prop :=
  (b.start = b.stop ∧ a.start ≤ b.start ∧ b.start < a.stop) ∨
    (a.start = a.stop ∧ b.start < a.start ∧ a.start < b.stop)

/-- `b` goes beyond `a` on both sides. -/
def InnerOf (a b : Span) : Prop := b.start < a.start ∧ a.stop < b.stop

/-- What is selected from `a` to `b`: nothing beyond them, both of them where they share no character
and neither cuts the other, or else nothing of the second. -/
structure Selects (r : Reach) (a b s : Span) : Prop where
  le_start : min a.start b.start ≤ s.start
  stop_le : s.stop ≤ max a.stop b.stop
  holds : r = .including → a.Apart b →
    (s.contains a = true ∧ s.contains b = true ↔ ¬Cut a b)
  leaves : r = .excluding → (s.Apart b ↔ ¬InnerOf a b)

/-- On targets in a text within the limit the span is built. -/
theorem exists_combine (r : Reach) (ha : a.stop ≤ Span.limit) (hb : b.stop ≤ Span.limit) :
    ∃ s, r.combine a b = .ok s := by
  have hsa := Nat.le_trans a.start_le_stop ha
  have hsb := Nat.le_trans b.start_le_stop hb
  unfold combine
  by_cases hab : a.start ≤ b.start
  · rw [if_pos hab]
    cases r with
    | including => exact Span.exists_spanning hsa hb
    | excluding => exact Span.exists_spanning hsa hsb
  · rw [if_neg hab]
    cases r with
    | including => exact Span.exists_spanning hsb ha
    | excluding => exact Span.exists_spanning hb ha

/-- Where the targets share no character, both are in the span unless one cuts the other. -/
theorem contains_iff_of_including (h : including.combine a b = .ok s) (hab : a.Apart b) :
    s.contains a = true ∧ s.contains b = true ↔ ¬Cut a b := by
  have hsa := a.start_le_stop
  have hsb := b.start_le_stop
  rw [Span.apart_iff] at hab
  rw [Span.contains_iff, Span.contains_iff, Cut]
  rcases including_cases h with ⟨hle, hstart, hstop⟩ | ⟨hlt, hstart, hstop⟩
  · omega
  · omega

/-- The second target is left out unless the first lies inside it. -/
theorem apart_iff_of_excluding (h : excluding.combine a b = .ok s) : s.Apart b ↔ ¬InnerOf a b := by
  have hsa := a.start_le_stop
  rw [Span.apart_iff, InnerOf]
  rcases excluding_cases h with ⟨hle, hstart, hstop⟩ | ⟨hlt, hstart, hstop⟩
  · omega
  · omega

theorem selects_of_combine {r : Reach} (h : r.combine a b = .ok s) : r.Selects a b s := by
  obtain ⟨hstart, hstop⟩ := combine_between h
  refine ⟨hstart, hstop, fun hr hab => ?_, fun hr => ?_⟩
  · subst hr
    exact contains_iff_of_including h hab
  · subst hr
    exact apart_iff_of_excluding h

end Reach

/-! ## Commands with a second target -/

namespace Command

open Modifier (applyAll)

variable {c : Command} {host : Host} {t : Text} {selection : Span} {first second : Target}

/-- A command with a second target resolves to the span from the first to it. -/
theorem resolve_of_combine {env : Modifier.Setting} (hext : c.extendModifiers ≠ [])
    (hfirst : applyAll env t c.modifiers (.ofSpan selection) = .ok first)
    (hsecond : applyAll env t c.extendModifiers first = .ok second)
    (h : c.reach.combine first.span second.span = .ok s) :
    c.resolve env t selection = .ok (.ofSpan s) := by
  have hne : ¬c.extendModifiers.isEmpty = true := by rwa [List.isEmpty_iff]
  refine bind_eq_ok.2 ⟨first, mapError_eq_ok.2 hfirst, ?_⟩
  rw [if_neg hne]
  refine bind_eq_ok.2 ⟨second, mapError_eq_ok.2 hsecond, ?_⟩
  exact bind_eq_ok.2 ⟨s, mapError_eq_ok.2 h, rfl⟩

/-- Selecting a span of the text is one edit. -/
theorem perform_select (hkind : c.kind = .select) (hs : s.stop ≤ t.length) :
    c.perform host t selection (.ofSpan s) = .ok [.select s] := by
  refine bind_eq_ok.2 ⟨t.slice s, mapError_eq_ok.2 (t.extract_eq_ok hs), ?_⟩
  rw [hkind]
  rfl

/-- **Reaching to a second target.** In a text within the limit of spans, let the modifiers lead from
the selection to a first target and those to extend with from there to a second. Then the command
selects a span that starts and ends between the outermost edges of the two. Where they share no
character, and the second is included, it holds both exactly if neither is a cursor that cuts the
other. Where the second is excluded, it shares no character with it exactly if the second does not go
beyond the first on both sides. -/
theorem run_reaches (c : Command) (host : Host) (t : Text) (selection : Span) (first second : Target)
    (ht : t.length ≤ Span.limit) (hs : selection.stop ≤ t.length) (hkind : c.kind = .select)
    (hext : c.extendModifiers ≠ [])
    (hfirst : applyAll host.env t c.modifiers (.ofSpan selection) = .ok first)
    (hsecond : applyAll host.env t c.extendModifiers first = .ok second) :
    ∃ s, c.run host t selection = .ok [.select s] ∧ c.reach.Selects first.span second.span s := by
  have hin := Modifier.applyAll_within (Target.within_ofSpan.2 hs) hfirst
  have hin' := (Modifier.applyAll_within hin hsecond).span_stop_le
  obtain ⟨s, hspan⟩ := c.reach.exists_combine (Nat.le_trans hin.span_stop_le ht) (Nat.le_trans hin' ht)
  have hresolve := resolve_of_combine hext hfirst hsecond hspan
  have hstop := (resolve_within hs hresolve).span_stop_le
  refine ⟨s, ?_, Reach.selects_of_combine hspan⟩
  rw [run_eq hs hresolve]
  exact perform_select hkind hstop

/-- From the end of the text to the last pair, and from there back to the one before, which is left
out. -/
theorem run_reaches_pairs :
    let host : Host := { env := ⟨Settings.default, .none⟩ }
    let t : Text := ['(', 'a', ')', ' ', '[', 'b', ']']
    let previous : Modifier := { kind := .brackets .previous }
    let c : Command :=
      { kind := .select, modifiers := [previous], extendModifiers := [previous], reach := .excluding }
    let first : Target := .ofSpan ⟨4, 7, by decide, by decide⟩
    let second : Target := .ofSpan ⟨0, 3, by decide, by decide⟩
    let s : Span := ⟨3, 7, by decide, by decide⟩
    t.length ≤ Span.limit ∧ (Span.point 7).stop ≤ t.length ∧ c.kind = .select ∧
      c.extendModifiers ≠ [] ∧
      applyAll host.env t c.modifiers (.ofSpan (.point 7)) = .ok first ∧
      applyAll host.env t c.extendModifiers first = .ok second ∧
      c.run host t (.point 7) = .ok [.select s] ∧ c.reach.Selects first.span second.span s := by
  intro host t previous c first second s
  have ht : t.length ≤ Span.limit := by decide
  have hs : (Span.point 7).stop ≤ t.length := by decide
  have hext : c.extendModifiers ≠ [] := by decide
  have hfirst : applyAll host.env t c.modifiers (.ofSpan (.point 7)) = .ok first := by rfl
  have hsecond : applyAll host.env t c.extendModifiers first = .ok second := by rfl
  have hrun : c.run host t (.point 7) = .ok [.select s] := by rfl
  obtain ⟨s', hrun', hspan⟩ :=
    run_reaches c host t (.point 7) first second ht hs rfl hext hfirst hsecond
  rw [hrun] at hrun'
  cases hrun'
  exact ⟨ht, hs, rfl, hext, hfirst, hsecond, hrun, hspan⟩

/-- From a line up to and including the start of it nothing is selected. From what stands in a pair up
to but excluding the pair the closing parenthesis is. -/
theorem run_reach_misses :
    let host : Host := { env := ⟨Settings.default, .none⟩ }
    let t : Text := ['(', 'a', ')']
    let toStart : Command := { kind := .select, extendModifiers := [{ kind := .lineStart }] }
    let toPair : Command :=
      { kind := .select, extendModifiers := [{ kind := .brackets .here }], reach := .excluding }
    let line : Span := ⟨0, 3, by decide, by decide⟩
    let inner : Span := ⟨1, 2, by decide, by decide⟩
    let closing : Span := ⟨2, 3, by decide, by decide⟩
    applyAll host.env t toStart.extendModifiers (.ofSpan line) = .ok (.ofSpan (.point 0)) ∧
      line.Apart (.point 0) ∧ toStart.run host t line = .ok [.select (.point 0)] ∧
      (Span.point 0).contains line = false ∧
      applyAll host.env t toPair.extendModifiers (.ofSpan inner) = .ok (.ofSpan line) ∧
      toPair.run host t inner = .ok [.select closing] ∧ ¬closing.Apart line := by
  intro host t toStart toPair line inner closing
  exact ⟨rfl, by decide, rfl, by decide, rfl, rfl, by decide⟩

end Command

end VoiceEdit
