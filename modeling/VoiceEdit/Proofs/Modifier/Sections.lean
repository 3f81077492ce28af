import VoiceEdit.Proofs.Modifier.Progress
import VoiceEdit.Proofs.Prose.Sections

/-!
# The end of the section

From a line of a section the modifier looks for its last line with content downwards only. From the
blank lines behind that one it answers the end of the line the target is on.

Results:

* `apply_section_end`: from above the last line with content, and from below it.
* `apply_section_end_misses`: a cursor on a blank line at the end of a section.
-/
namespace VoiceEdit.Modifier

open Markdown (IsSection IsLastContent)
open Text (IsLine OnlyNewlines)

variable {m : Modifier} {env : Setting} {t : Text} {target : Target}
  {n l first last start stop start' stop' : Nat}

theorem find_sectionEnd (hkind : m.kind = .sectionEnd) (s : Span) :
    m.find env t s = .ok (some (.ofSpan (.point (Markdown.sectionEnd t s)))) := by
  simp only [find, hkind]
  rfl

/-- An end of a section that is the end of the section of a cursor there is what any number of
repetitions answers. -/
theorem apply_sectionEnd (env : Setting) (hkind : m.kind = .sectionEnd) (hrep : m.repetitions ≠ 0)
    (hne : t ≠ []) (ht : target.Within t) (hstop : stop ≤ t.length)
    (h : Markdown.sectionEnd t target.span = stop) (hself : Markdown.sectionEnd t (.point stop) = stop) :
    m.apply env t target = .ok (.ofSpan (.point stop)) := by
  have step_eq {target : Target} (h : Markdown.sectionEnd t target.span = stop) :
      m.step env t target = .ok (.ofSpan (.point stop)) := by
    refine step_eq_ok_iff.2 (.inl ?_)
    rw [find_sectionEnd hkind, h]
  exact apply_at_rest hrep hne ht (step_eq h) hstop (step_eq hself)

/-- **The end of the section.** In a text with only newlines for line breaks, let the target end on
line `n` and let line `l` be the last with content of the section of line `n`. From line `l` and from
the lines above it the modifier answers a cursor at the end of line `l`. From the blank lines below
line `l` it answers one at the end of line `n`. -/
theorem apply_section_end (env : Setting) (hkind : m.kind = .sectionEnd) (hrep : m.repetitions ≠ 0)
    (hbreaks : OnlyNewlines t) (ht : target.removed.stop ≤ t.length)
    (hn : IsLine t n start stop) (hstart : start ≤ target.span.stop) (hstop : target.span.stop ≤ stop)
    (hsection : IsSection t n first last) (hlast : IsLastContent t first last l)
    (hl : IsLine t l start' stop') :
    (n ≤ l → m.apply env t target = .ok (.ofSpan (.point stop'))) ∧
      (l < n → m.apply env t target = .ok (.ofSpan (.point stop))) := by
  have hne : t ≠ [] := by
    rintro rfl
    obtain ⟨k, start, stop, hk⟩ := hlast.content
    exact Nat.not_lt_zero _ (Nat.lt_of_lt_of_le hk.lt_stop hk.stop_le)
  have hplace := hn.count_eq hstart hstop
  refine ⟨fun hle => ?_, fun hlt => ?_⟩
  · have hself : IsSection t l first last :=
      { hsection with first_le := hlast.first_le, le_last := hlast.le_last }
    exact apply_sectionEnd env hkind hrep hne ht hl.stop_le
      (Markdown.sectionEnd_eq hbreaks hplace hsection hlast hle hl)
      (Markdown.sectionEnd_eq hbreaks (hl.count_eq hl.start_le_stop (Nat.le_refl stop')) hself hlast
        (Nat.le_refl l) hl)
  · exact apply_sectionEnd env hkind hrep hne ht hn.stop_le
      (Markdown.sectionEnd_eq_of_below hbreaks hplace hsection hlast hlt hn)
      (Markdown.sectionEnd_eq_of_below hbreaks (hn.count_eq hn.start_le_stop (Nat.le_refl stop))
        hsection hlast hlt hn)

/-- From the heading of the first section, which ends with a blank line, to the end of `b`. -/
theorem apply_section_end_heading :
    let m : Modifier := { kind := .sectionEnd }
    let env : Setting := ⟨Settings.default, .none⟩
    let t : Text := ['#', ' ', 'a', '\n', 'b', '\n', '\n', '#', ' ', 'c']
    let target : Target := .ofSpan (.point 1)
    m.kind = .sectionEnd ∧ m.repetitions ≠ 0 ∧ OnlyNewlines t ∧ target.removed.stop ≤ t.length ∧
      IsLine t 0 0 3 ∧ 0 ≤ target.span.stop ∧ target.span.stop ≤ 3 ∧ IsSection t 0 0 2 ∧
      IsLastContent t 0 2 1 ∧ IsLine t 1 4 5 ∧
      m.apply env t target = .ok (.ofSpan (.point 5)) := by
  intro m env t target
  have hbreaks : OnlyNewlines t := by decide
  have ht : target.removed.stop ≤ t.length := by decide
  have hn : IsLine t 0 0 3 := by decide
  have hl : IsLine t 1 4 5 := by decide
  have hnone : ∀ i < 3, 0 < i → Markdown.isHeading (t.lineContent i) = false := by decide
  have hnext : Markdown.Heading t 3 := (Markdown.heading_iff hbreaks).2 (by decide)
  have hblank : Text.indentation (t.lineContent 2) = none := by decide
  have hsection : IsSection t 0 0 2 := ⟨by decide, by decide, .inl rfl, .inr hnext,
    fun i hi hle => Markdown.not_heading hbreaks (hnone i (Nat.lt_succ_of_le hle) hi)⟩
  have hlast : IsLastContent t 0 2 1 := by
    refine ⟨by decide, by decide, ⟨0, (Text.indented_iff hbreaks).2 (by decide)⟩,
      fun i k hi hle => ?_⟩
    obtain rfl : i = 2 := Nat.le_antisymm hle hi
    exact Markdown.not_indented hbreaks hblank
  exact ⟨rfl, by decide, hbreaks, ht, hn, by decide, by decide, hsection, hlast, hl,
    (apply_section_end (m := m) env rfl (by decide) hbreaks ht hn (by decide) (by decide) hsection
      hlast hl).1 (by decide)⟩

/-- The section is all of the text, and its last line with content is the first. A cursor there leads
to the end of it, at 1, and a cursor on the blank line below stays where it is. -/
theorem apply_section_end_misses :
    let m : Modifier := { kind := .sectionEnd }
    let env : Setting := ⟨Settings.default, .none⟩
    let t : Text := ['a', '\n', '\n']
    IsLine t 1 2 2 ∧ IsSection t 1 0 2 ∧ IsLastContent t 0 2 0 ∧ IsLine t 0 0 1 ∧
      m.apply env t (.ofSpan (.point 0)) = .ok (.ofSpan (.point 1)) ∧
      m.apply env t (.ofSpan (.point 2)) = .ok (.ofSpan (.point 2)) := by
  intro m env t
  have hbreaks : OnlyNewlines t := by decide
  have hfirst : IsLine t 0 0 1 := by decide
  have hbelow : IsLine t 1 2 2 := by decide
  have hnone : ∀ i < 3, Markdown.isHeading (t.lineContent i) = false := by decide
  have hblank : ∀ i < 3, 0 < i → Text.indentation (t.lineContent i) = none := by decide
  have hsection (n : Nat) (hn : n ≤ 2) : IsSection t n 0 2 := ⟨Nat.zero_le n, hn, .inl rfl, .inl rfl,
    fun i _ hle => Markdown.not_heading hbreaks (hnone i (Nat.lt_succ_of_le hle))⟩
  have hlast : IsLastContent t 0 2 0 := ⟨Nat.le_refl 0, Nat.zero_le 2,
    ⟨0, (Text.indented_iff hbreaks).2 (by decide)⟩,
    fun i k hi hle => Markdown.not_indented hbreaks (hblank i (Nat.lt_succ_of_le hle) hi)⟩
  have above (s : Span) (hs : (t.take s.stop).count '\n' = 0) : Markdown.sectionEnd t s = 1 :=
    Markdown.sectionEnd_eq hbreaks hs (hsection 0 (by decide)) hlast (Nat.le_refl 0) hfirst
  have below : Markdown.sectionEnd t (.point 2) = 2 :=
    Markdown.sectionEnd_eq_of_below hbreaks (by decide) (hsection 1 (by decide)) hlast (by decide)
      hbelow
  exact ⟨hbelow, hsection 1 (by decide), hlast, hfirst,
    apply_sectionEnd (m := m) env rfl (by decide) (by decide) (Nat.zero_le _) (by decide)
      (above _ (by decide)) (above _ (by decide)),
    apply_sectionEnd (m := m) env rfl (by decide) (by decide) (Target.within_ofSpan.2 (by decide))
      (by decide) below below⟩

end VoiceEdit.Modifier
