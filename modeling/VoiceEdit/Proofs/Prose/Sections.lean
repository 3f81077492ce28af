import VoiceEdit.Proofs.Text.Rows
import VoiceEdit.Proofs.Yields
import VoiceEdit.Prose.Markdown

/-!
# Sections and their last lines

A section goes from a heading, or from the first line, to the line before the next heading, or to the
last line. Its end is looked for from a line of it downwards only. So from a line at or above the last
one with content the end of that line is found, and from a blank line below it none: such a line is
taken for the end of its section itself.

Results:

* `heading_iff`: which of the numbered lines are headings.
* `lastLine_eq`: the last line of a section.
* `sectionEnd_eq`, `sectionEnd_eq_of_below`: the end of a section, from above and from below.
-/
namespace VoiceEdit.Markdown

open Text (IsLine Indented OnlyNewlines)

variable {t row : Text} {s : Span} {n l m first last start stop : Nat}

/-- Line `n` begins with one or more number signs and a space behind them. -/
def Heading (t : Text) (n : Nat) : Prop := ∃ start stop signs, IsLine t n start stop ∧ 0 < signs ∧
  start + signs < stop ∧ (∀ i, start ≤ i → i < start + signs → t[i]? = some '#') ∧
  t[start + signs]? = some ' '

/-- The section of line `n` goes from line `first`, the nearest heading at or above line `n` or else
the first line, to line `last`, the one before the next heading or else the last line. -/
structure IsSection (t : Text) (n first last : Nat) : Prop where
  first_le : first ≤ n
  le_last : n ≤ last
  begins : first = 0 ∨ Heading t first
  ends : last = t.count '\n' ∨ Heading t (last + 1)
  holds : ∀ m, first < m → m ≤ last → ¬Heading t m

/-- Line `l` is the last with content from line `first` to line `last`. -/
structure IsLastContent (t : Text) (first last l : Nat) : Prop where
  first_le : first ≤ l
  le_last : l ≤ last
  content : ∃ k, Indented t l k
  blank : ∀ m k, l < m → m ≤ last → ¬Indented t m k

/-! ## Headings -/

theorem isHeading_iff : isHeading row = true ↔
    ∃ signs, 0 < signs ∧ (∀ i < signs, row[i]? = some '#') ∧ row[signs]? = some ' ' := by
  have hsigns : (row.takeWhile (· == '#')).length = 0 + Text.runAfter row (· == '#') 0 :=
    (Nat.zero_add _).symm
  unfold isHeading
  simp only [Bool.and_eq_true, decide_eq_true_eq, beq_iff_eq, List.head?_drop]
  rw [hsigns]
  constructor
  · rintro ⟨hpos, hspace⟩
    refine ⟨_, hpos, fun i hi => ?_, hspace⟩
    obtain ⟨c, hc, hsign⟩ := Text.nextIs_iff.1 (Text.nextIs_of_lt_add_runAfter (Nat.zero_le i) hi)
    rw [hc, eq_of_beq hsign]
  · rintro ⟨signs, hpos, hrun, hspace⟩
    have heq : 0 + Text.runAfter row (· == '#') 0 = signs := by
      refine Text.add_runAfter_eq (Nat.zero_le _) (fun i _ hi => ?_) ?_
      · exact Text.nextIs_iff.2 ⟨_, hrun i hi, beq_self_eq_true _⟩
      · rw [Text.nextIs, hspace, Option.any_some]
        rfl
    rw [heq]
    exact ⟨hpos, hspace⟩

/-- Which of the numbered lines are headings. -/
theorem heading_iff (h : OnlyNewlines t) :
    Heading t n ↔ n ≤ t.count '\n' ∧ isHeading (t.lineContent n) = true := by
  rw [isHeading_iff]
  have hlen := t.length_lineContent n
  constructor
  · rintro ⟨start, stop, signs, hline, hpos, hlt, hrun, hspace⟩
    obtain ⟨rfl, rfl⟩ := hline.eq_startOfLine h
    refine ⟨hline.le_count, signs, hpos, fun i hi => ?_, ?_⟩
    · rw [Text.getElem?_lineContent rfl (by omega)]
      exact hrun _ (Nat.le_add_right _ _) (by omega)
    · rw [Text.getElem?_lineContent rfl hlt]
      exact hspace
  · rintro ⟨hn, signs, hpos, hrun, hspace⟩
    have hlt := (List.getElem?_eq_some_iff.1 hspace).1
    refine ⟨_, _, signs, Text.isLine_startOfLine h hn, hpos, by omega, fun i hi hlt' => ?_, ?_⟩
    · have hsign := hrun (i - t.startOfLine n) (by omega)
      rwa [Text.getElem?_lineContent rfl (by omega), Nat.add_sub_cancel' hi] at hsign
    · rwa [Text.getElem?_lineContent rfl (by omega)] at hspace

theorem not_heading (h : OnlyNewlines t) (hn : isHeading (t.lineContent n) = false) :
    ¬Heading t n := by
  intro hheading
  rw [((heading_iff h).1 hheading).2] at hn
  cases hn

theorem not_indented {k : Nat} (h : OnlyNewlines t)
    (hn : Text.indentation (t.lineContent n) = none) : ¬Indented t n k := by
  intro hk
  rw [((Text.indented_iff h).1 hk).2] at hn
  cases hn

/-! ## Sections -/

theorem IsSection.last_le (h : OnlyNewlines t) (hsection : IsSection t n first last) :
    last ≤ t.count '\n' := by
  rcases hsection.ends with rfl | hheading
  · exact Nat.le_refl _
  · exact Nat.le_of_succ_le ((heading_iff h).1 hheading).1

/-- The last line of a section. -/
theorem lastLine_eq (h : OnlyNewlines t) (hsection : IsSection t n first last) :
    lastLine t n = last := by
  have hcount := Text.lineCount_eq_count h
  have hle := hsection.le_last
  have hfirst := hsection.first_le
  have hlast := hsection.last_le h
  have hnone (m : Nat) (hm : m ≤ last) :
      (decide (n < m) && isHeading (t.lineContent m)) = false := by
    refine eq_false_of_ne_true fun hm' => ?_
    rw [Bool.and_eq_true, decide_eq_true_eq] at hm'
    exact hsection.holds m (by omega) hm ((heading_iff h).2 ⟨by omega, hm'.2⟩)
  unfold lastLine
  by_cases hheading : Heading t (last + 1)
  · obtain ⟨hnext, hsigns⟩ := (heading_iff h).1 hheading
    have hfind : (List.range t.lineCount).find?
        (fun m => decide (n < m) && isHeading (t.lineContent m)) = some (last + 1) := by
      refine List.find?_range_eq_some.2 ⟨?_, List.mem_range.2 (by omega), fun m hm => ?_⟩
      · rw [hsigns, decide_eq_true (Nat.lt_succ_of_le hle)]
        rfl
      · rw [hnone m (by omega)]
        rfl
    rw [hfind]
    rfl
  · have hend : last = t.count '\n' := hsection.ends.resolve_right hheading
    have hfind : (List.range t.lineCount).find?
        (fun m => decide (n < m) && isHeading (t.lineContent m)) = none := by
      refine List.find?_eq_none.2 fun m hm => ?_
      rw [List.mem_range] at hm
      rw [hnone m (by omega)]
      exact Bool.false_ne_true
    rw [hfind]
    simp only
    omega

/-! ## The end of a section -/

theorem mem_drop_range {b : Nat} : m ∈ (List.range (b + 1)).drop n ↔ n ≤ m ∧ m ≤ b := by
  rw [List.range_eq_range', List.drop_range', List.mem_range'_1]
  omega

/-- The last number from `n` to `b` that satisfies `q`, looked for from the last one on. -/
theorem find?_reverse_drop_range {q : Nat → Bool} {b : Nat} (hn : n ≤ l) (hb : l ≤ b)
    (hl : q l = true) (hbehind : ∀ m, l < m → m ≤ b → q m = false) :
    ((List.range (b + 1)).drop n).reverse.find? q = some l := by
  have hmem : l ∈ ((List.range (b + 1)).drop n).reverse :=
    List.mem_reverse.2 (mem_drop_range.2 ⟨hn, hb⟩)
  have hpairs : ((List.range (b + 1)).drop n).reverse.Pairwise fun a b => b < a :=
    List.pairwise_reverse.2 (List.pairwise_lt_range.sublist (List.drop_sublist _ _))
  cases hfind : ((List.range (b + 1)).drop n).reverse.find? q with
  | none => exact absurd hl (List.find?_eq_none.1 hfind l hmem)
  | some a =>
    rcases eq_or_of_find? hpairs hfind hmem hl with rfl | hlt
    · rfl
    · have ha := mem_drop_range.1 (List.mem_reverse.1 (List.mem_of_find?_eq_some hfind))
      have hq := List.find?_some hfind
      rw [hbehind a hlt ha.2] at hq
      cases hq

theorem isSome_indentation_iff (h : OnlyNewlines t) (hn : n ≤ t.count '\n') :
    (Text.indentation (t.lineContent n)).isSome = true ↔ ∃ k, Indented t n k := by
  have hcount := Text.lineCount_eq_count h
  rw [Option.isSome_iff_exists]
  exact exists_congr fun k => by rw [Text.indented_iff h, and_iff_right (by omega)]

/-- The end of a section is looked for from the line of the span to the last one. -/
theorem sectionEnd_eq_lineEnd (h : OnlyNewlines t) (hn : (t.take s.stop).count '\n' = n)
    (hsection : IsSection t n first last) : sectionEnd t s = t.lineEnd (t.startOfLine
      ((((List.range (last + 1)).drop n).reverse.find? fun m =>
        (Text.indentation (t.lineContent m)).isSome).getD n)) := by
  unfold sectionEnd
  simp only [Text.lineOf_eq_count h, hn, lastLine_eq h hsection]

/-- From a line at or above the last with content the end of that one is found. -/
theorem sectionEnd_eq (h : OnlyNewlines t) (hn : (t.take s.stop).count '\n' = n)
    (hsection : IsSection t n first last) (hlast : IsLastContent t first last l) (hle : n ≤ l)
    (hline : IsLine t l start stop) : sectionEnd t s = stop := by
  obtain ⟨rfl, rfl⟩ := hline.eq_startOfLine h
  have hend := hsection.last_le h
  have hl := hlast.le_last
  rw [sectionEnd_eq_lineEnd h hn hsection, find?_reverse_drop_range hle hl
    ((isSome_indentation_iff h (by omega)).2 hlast.content) fun m hlm hm => ?_]
  · rfl
  · refine eq_false_of_ne_true fun hsome => ?_
    obtain ⟨k, hk⟩ := (isSome_indentation_iff h (by omega)).1 hsome
    exact hlast.blank m k hlm hm hk

/-- From a line below the last with content the end of that line itself is found. -/
theorem sectionEnd_eq_of_below (h : OnlyNewlines t) (hn : (t.take s.stop).count '\n' = n)
    (hsection : IsSection t n first last) (hlast : IsLastContent t first last l) (hlt : l < n)
    (hline : IsLine t n start stop) : sectionEnd t s = stop := by
  obtain ⟨rfl, rfl⟩ := hline.eq_startOfLine h
  have hend := hsection.last_le h
  rw [sectionEnd_eq_lineEnd h hn hsection, List.find?_eq_none.2 fun m hm hsome => ?_]
  · rfl
  · obtain ⟨hnm, hm⟩ := mem_drop_range.1 (List.mem_reverse.1 hm)
    obtain ⟨k, hk⟩ := (isSome_indentation_iff h (by omega)).1 hsome
    exact hlast.blank m k (by omega) hm hk

end VoiceEdit.Markdown
