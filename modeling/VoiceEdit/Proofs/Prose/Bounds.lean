import VoiceEdit.Layout.Line
import VoiceEdit.Proofs.Text.Lines
import VoiceEdit.Proofs.Yields
import VoiceEdit.Prose.Markdown
import VoiceEdit.Prose.Sentence

/-!
# Sentences, links and lines lie in the text

The runs that delimit prose are measured from places in the text, so they end in it,
and what is given up at the end of one never reaches back before its start.

Results:

* `Sentence.yields_around`: a sentence starts before it ends, in the text.
* `Markdown.mem_linksFrom_bounds`: a link lies in what it was read from.
* `Line.yields_around`, `Line.yields_betweenWhitespace`: what layout marks off.
-/
namespace VoiceEdit

variable {t : Text} {s : Span}

theorem Span.lastOffset_le (s : Span) : s.lastOffset ≤ s.stop := by
  have hs := s.start_le_stop
  unfold Span.lastOffset
  split
  · exact hs
  · exact Nat.sub_le _ _

/-! ## Sentences -/

namespace Sentence

variable (k : SentenceKind)

/-- A sentence that starts at or before its delimiter does not end before it starts. -/
theorem le_stopAt {start delimiter : Nat} (h : start ≤ delimiter) :
    start ≤ stopAt k t start delimiter := by
  unfold stopAt
  split
  · omega
  · omega

theorem yields_removal? (ht : t.length ≤ Span.limit) (hs : s.stop ≤ t.length) :
    Yields (removal? t s) (Removes t s) := by
  have htrailing := t.add_runAfter_le (· == ' ') hs
  unfold removal?
  simp only
  split
  · exact yields_removal ht (Nat.le_refl _) (Nat.le_add_right _ _) (by omega)
  · split
    · exact yields_removal ht (Nat.sub_le _ _) (Nat.le_refl _) hs
    · exact .pure removes_none

theorem yields_around (ht : t.length ≤ Span.limit) (hs : s.stop ≤ t.length) :
    Yields (around k t s) (·.Within t) := by
  have hle := s.start_le_stop
  have hlast := s.lastOffset_le
  unfold around
  extract_lets start probe delimiter
  have hstart : start ≤ t.length := startAt_le_length k t (by omega)
  have hprobe : probe ≤ t.length := by omega
  have hdelimiter : start ≤ delimiter :=
    Nat.le_trans (Nat.le_max_right _ _) (Nat.le_add_right _ _)
  have hstop : start ≤ min (stopAt k t start delimiter) t.length :=
    Nat.le_min.2 ⟨le_stopAt k hdelimiter, hstart⟩
  refine (yields_ofBounds hstop (by omega)).bind fun span hspan => ?_
  have hwithin : span.stop ≤ t.length := by omega
  exact (yields_removal? ht hwithin).bind fun r hr => yields_withRemoval? hwithin hr

theorem finds_next? (ht : t.length ≤ Span.limit) : Finds t (next? k t s) := by
  unfold next?
  extract_lets pos pos₁
  by_cases hend : t.length ≤ pos₁
  · rw [if_pos hend]
    exact finds_none
  · rw [if_neg hend]
    have hpos : (Span.point pos₁).stop ≤ t.length := Nat.le_of_not_le hend
    exact (yields_around k ht hpos).finds

theorem finds_previous? (ht : t.length ≤ Span.limit) (hs : s.stop ≤ t.length) :
    Finds t (previous? k t s) := by
  have hle := s.start_le_stop
  unfold previous?
  extract_lets pos pos₁
  have h₁ : pos ≤ t.length := startAt_le_length k t (by omega)
  by_cases hstart : pos₁ = 0
  · rw [if_pos hstart]
    exact finds_none
  · rw [if_neg hstart]
    have hpos : (Span.point (pos₁ - 1)).stop ≤ t.length := by
      rw [Span.stop_point]
      omega
    exact (yields_around k ht hpos).finds

end Sentence

/-! ## Links and sections -/

namespace Markdown

/-- A link lies in what it was read from. -/
theorem mem_linksFrom_bounds {skip pos : Nat} {cs : List Char} {o : Nat × Nat}
    (h : o ∈ linksFrom skip pos cs) : pos ≤ o.1 ∧ o.1 ≤ o.2 ∧ o.2 ≤ pos + cs.length := by
  induction cs generalizing skip pos with
  | nil =>
    cases skip with
    | zero => cases h
    | succ skip => cases h
  | cons c rest ih =>
    have later {skip : Nat} (h : o ∈ linksFrom skip (pos + 1) rest) :
        pos ≤ o.1 ∧ o.1 ≤ o.2 ∧ o.2 ≤ pos + (c :: rest).length := by
      have := ih h
      rw [List.length_cons]
      omega
    cases skip with
    | succ skip => exact later h
    | zero =>
      rw [linksFrom] at h
      cases hlink : linkLength? (c :: rest) with
      | none =>
        rw [hlink] at h
        exact later h
      | some n =>
        rw [hlink] at h
        have hle := linkLength?_le hlink
        rcases List.mem_cons.1 h with rfl | hmem
        · exact ⟨Nat.le_refl _, Nat.le_add_right _ _, by omega⟩
        · exact later hmem

theorem yields_linksOnLine (ht : t.length ≤ Span.limit) {i : Nat} (hi : i ≤ t.length) :
    Yields (linksOnLine t i) fun links => ∀ link ∈ links, link.stop ≤ t.length := by
  have hstart := t.lineStart_le i
  refine yields_mapM fun o ho => ?_
  obtain ⟨-, h₁, h₂⟩ := mem_linksFrom_bounds ho
  rw [List.length_take, t.length_after] at h₂
  exact (yields_ofBounds h₁ (by omega)).mono fun link hlink => by omega

theorem finds_link? (ht : t.length ≤ Span.limit) (hs : s.stop ≤ t.length) :
    FindsSpan t (link? t s) := by
  have hle := s.start_le_stop
  refine (yields_linksOnLine ht (by omega)).bind fun links hlinks => .pure fun link hlink => ?_
  rcases Option.or_eq_some_iff.1 hlink with hlink | ⟨-, hlink⟩
  · exact hlinks link (List.mem_of_find?_eq_some hlink)
  · exact hlinks link (List.mem_of_head? hlink)

theorem sectionEnd_le : sectionEnd t s ≤ t.length := t.lineEnd_le_length _

end Markdown

/-! ## Lines -/

namespace Line

theorem yields_around (ht : t.length ≤ Span.limit) (withBreak : Bool) (hs : s.stop ≤ t.length) :
    Yields (around t withBreak s) (·.stop ≤ t.length) := by
  have hle := s.start_le_stop
  have hlast := s.lastOffset_le
  have hstart := t.lineStart_le s.start
  unfold around
  extract_lets start stop
  have hstop : stop ≤ t.length := t.lineEnd_le_length _
  have horder : start ≤ stop :=
    Nat.le_trans (Nat.le_max_right _ _) (t.le_lineEnd (by omega))
  cases withBreak with
  | true =>
    have hend : start ≤ min (stop + 1) t.length := by omega
    exact (yields_ofBounds hend (by omega)).mono fun line hline => by omega
  | false => exact (yields_ofBounds horder (by omega)).mono fun line hline => by omega

theorem yields_betweenWhitespace (ht : t.length ≤ Span.limit) (hs : s.stop ≤ t.length) :
    Yields (betweenWhitespace t s) (·.Within t) := by
  have hle := s.start_le_stop
  unfold betweenWhitespace
  extract_lets start stop trailing
  have hstart : start ≤ s.start := Nat.sub_le _ _
  have horder : s.stop ≤ stop := Nat.le_add_right _ _
  have hstop : stop ≤ t.length := t.add_runAfter_le _ hs
  have htrailing : stop + trailing ≤ t.length := t.add_runAfter_le isBlank hstop
  refine (yields_ofBounds (by omega) (by omega)).bind fun span hspan => ?_
  extract_lets finish
  by_cases hblank : 0 < trailing
  · rw [if_pos hblank]
    refine (yields_ofBounds (by omega) (by omega)).bind fun removal hremoval => ?_
    exact yields_withRemoval (by omega) (by omega) (by omega)
  · rw [if_neg hblank]
    refine (yields_ofBounds (by omega) (by omega)).bind fun removal hremoval => ?_
    exact yields_withRemoval (by omega) (by omega) (by omega)

end Line

end VoiceEdit
