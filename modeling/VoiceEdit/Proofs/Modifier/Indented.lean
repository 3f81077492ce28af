import VoiceEdit.Proofs.Code.Indented
import VoiceEdit.Proofs.Modifier.Answers
import VoiceEdit.Proofs.Modifier.Bounds

/-!
# The indented block of a target

In a text whose only line breaks are newlines the modifier for indented blocks fails where all
lines are blank. Else it answers the block around the nearest line with content, at or above the
line its target starts on or, if there is none, below: as many lines as are indented at least as
far as that line.

Results:

* `apply_indented_maximal`: where it fails, and what it answers else.
-/
namespace VoiceEdit.Modifier

open Block (IsAnchor IsBlock Covers)
open Text (Indented OnlyNewlines)

variable {m : Modifier} {env : Setting} {t : Text} {target : Target}

theorem find_indented (hkind : m.kind = .indentedBlock) (s : Span) :
    m.find env t s = Block.indented? t s := by
  simp only [find, hkind]

/-- **The block around the anchor.** In a text that is not empty and has only newlines for line
breaks, the modifier fails to find a block exactly if all lines are blank. Else a line with
content is nearest to the one the target starts on, lines around it make up its block, and the
modifier answers them. -/
theorem apply_indented_maximal (env : Setting) (hkind : m.kind = .indentedBlock)
    (hrep : m.repetitions = 1) (hne : t ≠ []) (hbreaks : OnlyNewlines t)
    (ht : target.removed.stop ≤ t.length) :
    (m.apply env t target = .error (.noMatch m.kind) ↔ ∀ n k, ¬Indented t n k) ∧
    ((∃ n k, Indented t n k) → ∃ a level first last,
      IsAnchor (Indented t) ((t.take target.span.start).count '\n') a ∧ Indented t a level ∧
        IsBlock (Indented t) a level first last ∧
        Answers t (m.apply env t target) (Covers t first last)) := by
  have hmust : m.kind.mustFind = true := by
    rw [hkind]
    rfl
  have hfinds (hlen : t.length ≤ Span.limit) : Finds t (m.find env t target.span) := by
    rw [find_indented hkind]
    exact Block.finds_indented? hlen
  refine ⟨⟨fun h n k hk => ?_, fun hblank => ?_⟩, fun hcontent => ?_⟩
  · obtain ⟨_, _, _, _, -, -, -, hcovers⟩ := Block.indented?_spec hbreaks ⟨n, k, hk⟩ target.span
    rcases error_of_apply hrep ht hfinds h with ⟨-, hnone, -⟩ | ⟨-, e, he⟩
    · rw [find_indented hkind] at hnone
      obtain ⟨f, hf, -⟩ := hcovers none hnone
      cases hf
    · cases he
  · refine noMatch_of_find_eq_none hrep hne hmust ht ?_
    rw [find_indented hkind]
    exact Block.indented?_eq_none hbreaks hblank
  · obtain ⟨a, level, first, last, hanchor, hlevel, hblock, hcovers⟩ :=
      Block.indented?_spec hbreaks hcontent target.span
    refine ⟨a, level, first, last, hanchor, hlevel, hblock,
      apply_answers_of_find hrep hne ht hfinds fun r hr => ?_⟩
    rw [find_indented hkind] at hr
    exact hcovers r hr

/-- From the blank line below `b` the block goes on to `c`, and `a` is outside. -/
example : ∃ found, Modifier.apply { kind := .indentedBlock } ⟨Settings.default, .none⟩
      ['a', '\n', ' ', 'b', '\n', '\n', ' ', ' ', 'c'] (.ofSpan (.point 5)) = .ok found ∧
      found.span.start = 3 ∧ found.removed.start = 2 ∧ found.span.stop = 9 ∧
      found.removed.stop = 9 :=
  ⟨_, rfl, rfl, rfl, rfl, rfl⟩

/-- The nearest line above the cursor that has content is `b`, so there is a block and it is found. -/
theorem apply_indented_maximal_blank :
    let m : Modifier := { kind := .indentedBlock }
    let env : Setting := ⟨Settings.default, .none⟩
    let t : Text := ['a', '\n', ' ', 'b', '\n', '\n', ' ', ' ', 'c']
    let target : Target := .ofSpan (.point 5)
    m.kind = .indentedBlock ∧ m.repetitions = 1 ∧ t ≠ [] ∧ OnlyNewlines t ∧
      target.removed.stop ≤ t.length ∧ (∃ n k, Indented t n k) ∧
      m.apply env t target ≠ .error (.noMatch m.kind) ∧
      ∃ a level first last, IsAnchor (Indented t) 2 a ∧ Indented t a level ∧
        IsBlock (Indented t) a level first last ∧
        ∃ found, m.apply env t target = .ok found ∧ Covers t first last found := by
  intro m env t target
  have hbreaks : OnlyNewlines t := by decide
  have ht : target.removed.stop ≤ t.length := by decide
  have hcontent : ∃ n k, Indented t n k :=
    ⟨1, 1, 2, 4, ⟨by decide, by decide, by decide, by decide, by decide, by decide⟩, by decide,
      by decide, by decide⟩
  obtain ⟨hfails, hblock⟩ :=
    apply_indented_maximal (m := m) env rfl rfl (by decide) hbreaks ht
  obtain ⟨a, level, first, last, hanchor, hlevel, hblock, hfound⟩ := hblock hcontent
  refine ⟨rfl, rfl, by decide, hbreaks, ht, hcontent, fun h => ?_,
    a, level, first, last, hanchor, hlevel, hblock, ?_⟩
  · obtain ⟨n, k, hk⟩ := hcontent
    exact hfails.1 h n k hk
  · rcases hfound with hfound | ⟨hlong, -⟩
    · exact hfound
    · exact absurd hlong (by decide)

end VoiceEdit.Modifier
