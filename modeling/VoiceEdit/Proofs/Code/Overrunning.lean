import VoiceEdit.Proofs.Code.Marked

/-!
# Line markers that overrun their line

A line marker is matched against the text, while its comment is cut off where the line ends. If the
marker holds a newline it goes on behind that, so that the body of the comment would begin behind the
end of it, and no comment of the text is read. Apart from that every comment is read, whatever the
markers are: those of block comments may hold newlines.

Results:

* `Leads.le_lineEnd_iff`: the marker of a line ends on it unless it holds a newline.
* `lineComment?_overruns`, `yields_lineComment?_of_not`: which line comments are read.
* `all_overruns`, `yields_all_of_not`: so it is for all comments.
-/
namespace VoiceEdit.Comment

variable {settings : Settings} {t marker : Text} {blocks : List Comment} {e : Span.Error} {n k : Nat}

/-- The marker of line `n` holds a newline, and lies neither in a block comment nor in the blanks
before one. -/
def OverrunsLine (settings : Settings) (t : Text) (n : Nat) : Prop :=
  ∃ k < t.length, ∃ marker ∈ settings.lineMarkers,
    Leads settings t n k marker ∧ ¬InSpan settings t k ∧ '\n' ∈ marker

instance (settings : Settings) (t : Text) (n : Nat) : Decidable (OverrunsLine settings t n) :=
  inferInstanceAs (Decidable (∃ k < t.length, ∃ marker ∈ settings.lineMarkers,
    Leads settings t n k marker ∧ ¬InSpan settings t k ∧ '\n' ∈ marker))

/-- The marker of some line overruns it. -/
def Overruns (settings : Settings) (t : Text) : Prop := ∃ n < t.lineCount, OverrunsLine settings t n

instance (settings : Settings) (t : Text) : Decidable (Overruns settings t) :=
  inferInstanceAs (Decidable (∃ n < t.lineCount, OverrunsLine settings t n))

/-- Markers without a newline overrun no line. -/
theorem not_overruns (h : settings.OneLine) : ¬Overruns settings t := by
  rintro ⟨n, -, k, -, marker, hmem, -, -, hbreak⟩
  exact h marker hmem hbreak

/-! ## Line comments -/

theorem length_le_takeWhile {p : Char → Bool} {m cs : List Char} (h : m <+: cs)
    (hm : ∀ c ∈ m, p c = true) : m.length ≤ (cs.takeWhile p).length := by
  obtain ⟨rest, rfl⟩ := h
  rw [List.takeWhile_append_of_pos hm, List.length_append]
  exact Nat.le_add_right _ _

/-- The marker of a line ends on the line unless it holds a newline. -/
theorem Leads.le_lineEnd_iff (h : Leads settings t n k marker) :
    k + marker.length ≤ t.lineEnd (t.startOfLine n) ↔ '\n' ∉ marker := by
  have hk := h.lt_length
  rw [← h.lineEnd_eq]
  constructor
  · intro hle hbreak
    obtain ⟨i, hi, hchar⟩ := List.getElem_of_mem hbreak
    have hstart := t.lineStart_le k
    have hon := Text.nextIs_of_mem_line (k := k + i) (Nat.le_of_lt hk) (by omega) (by omega)
    rw [Text.nextIs, Text.getElem?_of_prefix_after h.begins.stands hi, hchar] at hon
    exact absurd hon (by decide)
  · intro hbreak
    have hrun : marker.length ≤ t.runAfter (· != '\n') k := by
      refine length_le_takeWhile h.begins.stands fun c hc => ?_
      rw [bne_iff_ne]
      rintro rfl
      exact hbreak hc
    rw [Text.lineEnd_eq (Nat.le_of_lt hk)]
    omega

theorem reported_of_le {i : Nat} (h : i ≤ Span.limit) : Span.reported i = i := by
  have hlimit : Span.limit = 100000000 := rfl
  unfold Span.reported
  omega

/-- A body that would begin behind the end of the comment is refused. -/
theorem ofParts_eq_error {start stop : Nat} (hlt : stop < start) (hstop : stop ≤ Span.limit) :
    ∃ i j, j < i ∧ ofParts t k start stop stop = .error (.invalid i j) := by
  have hbounds : t.trimmedBounds start stop = (start, stop) := by
    simp only [Text.trimmedBounds, Prod.mk.injEq]
    omega
  have hbody : Span.ofBounds start stop = .error (.invalid (Span.reported start) (Span.reported stop)) :=
    dif_neg fun h => by omega
  refine ⟨Span.reported start, Span.reported stop, ?_, ?_⟩
  · rw [reported_of_le hstop]
    unfold Span.reported
    have hlimit : Span.limit = 100000000 := rfl
    omega
  · simp only [ofParts, hbounds, hbody]
    rfl

section

variable (ht : t.length ≤ Span.limit) (hblocks : Comment.blocks t settings = .ok blocks)
include ht hblocks

/-- The line comment of a line that its marker overruns is refused. -/
theorem lineComment?_overruns (h : OverrunsLine settings t n) :
    ∃ i j, j < i ∧ lineComment? t settings.markersByLength blocks n = .error (.invalid i j) := by
  obtain ⟨k, -, marker, -, hleads, houtside, hbreak⟩ := h
  have hlen := t.lineEnd_le_length (t.startOfLine n)
  have hlt : t.lineEnd (t.startOfLine n) < k + marker.length :=
    Nat.lt_of_not_le fun hle => hleads.le_lineEnd_iff.1 hle hbreak
  obtain ⟨i, j, hij, hparts⟩ := ofParts_eq_error (t := t) (k := k) hlt (by omega)
  refine ⟨i, j, hij, ?_⟩
  rw [lineComment?_of_leads hleads, if_neg (mt (any_spans_iff hblocks).1 houtside), hparts]
  rfl

/-- Every other line comment is read. -/
theorem yields_lineComment?_of_not (h : ¬OverrunsLine settings t n) :
    Yields (lineComment? t settings.markersByLength blocks n) fun o => ∀ c ∈ o, c.Within t := by
  by_cases hleads : ∃ k marker, Leads settings t n k marker
  · obtain ⟨k, marker, hleads⟩ := hleads
    rw [lineComment?_of_leads hleads]
    split
    · exact .pure fun c hc => by cases hc
    · rename_i hany
      have hbreak : '\n' ∉ marker := fun hbreak =>
        h ⟨k, hleads.lt_length, marker, hleads.begins.mem, hleads, mt (any_spans_iff hblocks).2 hany, hbreak⟩
      refine (yields_ofParts ht (Nat.le_add_right _ _) (hleads.le_lineEnd_iff.2 hbreak) (Nat.le_refl _)
        (t.lineEnd_le_length _)).map fun c hc c' hc' => ?_
      cases hc'
      exact hc
  · rw [lineComment?_of_forall fun k marker hk => hleads ⟨k, marker, hk⟩]
    exact .pure fun c hc => by cases hc

end

/-! ## All comments -/

/-- If no marker overruns its line, every comment is read, and lies in the text. -/
theorem yields_all_of_not (ht : t.length ≤ Span.limit) (h : ¬Overruns settings t) :
    Yields (all t settings) fun cs => ∀ c ∈ cs, c.Within t := by
  obtain ⟨blocks, hblocks, hwithin⟩ := yields_blocks ht settings
  unfold all
  rw [hblocks]
  refine (yields_mapM fun n hn => yields_lineComment?_of_not ht hblocks fun hline =>
    h ⟨n, List.mem_range.1 hn, hline⟩).bind fun lines hlines => .pure ?_
  intro c hc
  rcases List.mem_append.1 (List.mem_mergeSort.1 hc) with hc | hc
  · exact hwithin c hc
  · obtain ⟨o, ho, heq⟩ := List.mem_filterMap.1 hc
    exact hlines o ho c heq

/-- If a marker does overrun its line, no comment is read. -/
theorem all_overruns (ht : t.length ≤ Span.limit) (h : Overruns settings t) :
    ∃ i j, j < i ∧ all t settings = .error (.invalid i j) := by
  obtain ⟨n, hn, hline⟩ := h
  obtain ⟨blocks, hblocks, -⟩ := yields_blocks ht settings
  cases hall : all t settings with
  | ok cs =>
    obtain ⟨blocks', hblocks', -, hread, -⟩ := exists_all hall
    obtain ⟨i, j, -, herror⟩ := lineComment?_overruns ht hblocks' hline
    obtain ⟨o, ho⟩ := hread n hn
    cases ho.symm.trans herror
  | error e =>
    -- The reading fails at the first of the lines that are overrun, which need not be line `n`.
    obtain ⟨blocks', hblocks', hlines⟩ := (bind_eq_error.1 hall).resolve_left (by rw [hblocks]; nofun)
    obtain rfl : blocks' = blocks := Except.ok.inj (hblocks'.symm.trans hblocks)
    rcases bind_eq_error.1 hlines with hlines | ⟨lines, -, hsort⟩
    · obtain ⟨n', -, herror⟩ := exists_error_of_mapM hlines
      by_cases hline' : OverrunsLine settings t n'
      · obtain ⟨i, j, hij, herror'⟩ := lineComment?_overruns ht hblocks hline'
        rw [herror] at herror'
        cases herror'
        exact ⟨i, j, hij, rfl⟩
      · obtain ⟨o, ho, -⟩ := yields_lineComment?_of_not ht hblocks hline'
        cases ho.symm.trans herror
    · cases hsort

end VoiceEdit.Comment
