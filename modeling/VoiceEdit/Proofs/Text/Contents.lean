import VoiceEdit.Proofs.Text.Rows

/-!
# What lines hold

Lines are counted by any line break, but what a line holds goes on to the next newline. So it stays on
its line where the break behind it is a newline, or ends in one. Behind any other break it goes on over
the next line, as far as that has anything, and both then end at the same place.

Results:

* `exists_startOfLine`: behind every newline one of the numbered lines starts.
* `contents_apart_iff`: where what a line holds ends before a later line.
* `lineContent_stays`: lines whose contents stay on them, and lines whose contents are apart.
* `lineContent_runs_over`: a line that holds the next one as well.
-/
namespace VoiceEdit.Text

variable {t : Text} {cs : List Char} {i j k n : Nat}

/-- The break behind line `n` is a newline, or ends in one. -/
def EndsInNewline (t : Text) (n : Nat) : Prop := t[t.startOfLine (n + 1) - 1]? = some '\n'

/-- The character at `k` is one of those that line `n` holds. -/
def HeldBy (t : Text) (n k : Nat) : Prop :=
  t.startOfLine n ≤ k ∧ k < t.startOfLine n + (t.lineContent n).length

instance (t : Text) (n : Nat) : Decidable (EndsInNewline t n) :=
  inferInstanceAs (Decidable (_ = _))

instance (t : Text) (n k : Nat) : Decidable (HeldBy t n k) := inferInstanceAs (Decidable (_ ∧ _))

/-! ## Where lines start -/

/-- Behind every newline a line starts. -/
theorem mem_lineStartsFrom (pos : Nat) (h : cs[i]? = some '\n') : pos + i + 1 ∈ lineStartsFrom pos cs := by
  fun_induction lineStartsFrom pos cs generalizing i with
  | case1 => cases h
  | case2 pos rest ih =>
    -- The newline that goes with the carriage return, or one behind the two.
    rcases i with _ | _ | i
    · cases h
    · exact List.mem_cons_self
    · have hrest := ih h
      rw [Nat.add_assoc pos 2 i, Nat.add_comm 2 i] at hrest
      exact List.mem_cons_of_mem _ hrest
  | case3 pos c rest _ hbreak ih =>
    cases i with
    | zero => exact List.mem_cons_self
    | succ i =>
      have hrest := ih h
      rw [Nat.add_assoc pos 1 i, Nat.add_comm 1 i] at hrest
      exact List.mem_cons_of_mem _ hrest
  | case4 pos c rest _ hbreak ih =>
    cases i with
    | zero =>
      cases h
      exact absurd (by decide) hbreak
    | succ i =>
      have hrest := ih h
      rwa [Nat.add_assoc pos 1 i, Nat.add_comm 1 i] at hrest

theorem exists_startOfLine (h : t[k]? = some '\n') : ∃ n < t.lineCount, t.startOfLine n = k + 1 := by
  have hmem : k + 1 ∈ t.lineStarts := by
    have hrest := mem_lineStartsFrom 0 h
    rw [Nat.zero_add] at hrest
    exact List.mem_cons_of_mem _ hrest
  obtain ⟨n, hn, hstart⟩ := List.getElem_of_mem hmem
  exact ⟨n, hn, by rw [startOfLine, List.getElem?_eq_getElem hn, hstart, Option.getD_some]⟩

/-! ## Where their contents end -/

theorem contentEnd_eq (t : Text) (n : Nat) :
    t.startOfLine n + (t.lineContent n).length = t.lineEnd (t.startOfLine n) := by
  rw [length_lineContent, Nat.add_sub_cancel' (t.le_lineEnd (startOfLine_le n))]

theorem lineContent_eq_nil_iff : t.lineContent n = [] ↔ t.lineEnd (t.startOfLine n) = t.startOfLine n := by
  have hle := t.le_lineEnd (startOfLine_le (t := t) n)
  rw [← List.length_eq_zero_iff, length_lineContent]
  omega

/-- A line that begins before the end of what an earlier one holds ends where that does. -/
theorem lineEnd_eq_of_le (hij : i ≤ j) (h : t.startOfLine j ≤ t.lineEnd (t.startOfLine i)) :
    t.lineEnd (t.startOfLine j) = t.lineEnd (t.startOfLine i) := by
  have hstart := t.lineStart_le (t.startOfLine i)
  exact lineEnd_of_mem (startOfLine_le i) (Nat.le_trans hstart (startOfLine_mono hij)) h

/-- What a line holds ends before a later one starts exactly if one of the breaks between them is a
newline, or the later one holds nothing. -/
theorem contents_apart_iff (hij : i < j) (hj : j < t.lineCount) :
    t.lineEnd (t.startOfLine i) ≤ t.startOfLine j ↔
      (∃ n, i ≤ n ∧ n < j ∧ EndsInNewline t n) ∨ t.lineContent j = [] := by
  have hstart := startOfLine_le (t := t) i
  have hstop := startOfLine_le (t := t) j
  rw [lineContent_eq_nil_iff]
  constructor
  · intro h
    rcases Nat.eq_or_lt_of_le h with heq | hlt
    · refine .inr ?_
      rw [lineEnd_eq_of_le (Nat.le_of_lt hij) (Nat.le_of_eq heq.symm), heq]
    · -- The newline that ends what line `i` holds ends a line before line `j`.
      have hbreak := getElem?_lineEnd hstart (Nat.lt_of_lt_of_le hlt hstop)
      obtain ⟨m, hm, hnext⟩ := exists_startOfLine hbreak
      have hle := t.le_lineEnd hstart
      have him : i < m := Nat.lt_of_not_le fun hmi => by
        have := startOfLine_mono (t := t) hmi
        omega
      have hmj : m ≤ j := Nat.le_of_not_lt fun hjm => by
        have := startOfLine_lt hjm hm
        omega
      refine .inl ⟨m - 1, Nat.le_pred_of_lt him, by omega, ?_⟩
      rw [EndsInNewline, Nat.sub_add_cancel (Nat.zero_lt_of_lt him), hnext, Nat.add_sub_cancel]
      exact hbreak
  · rintro (⟨n, hin, hnj, hbreak⟩ | hnone)
    · have hlt := startOfLine_lt (t := t) (Nat.lt_succ_of_le hin) (Nat.lt_of_le_of_lt hnj hj)
      calc t.lineEnd (t.startOfLine i) ≤ t.lineEnd (t.startOfLine (n + 1) - 1) :=
            lineEnd_mono (Nat.le_pred_of_lt hlt)
        _ = t.startOfLine (n + 1) - 1 := lineEnd_eq_self (nextIs_iff.2 ⟨'\n', hbreak, rfl⟩)
        _ ≤ t.startOfLine (n + 1) := Nat.sub_le _ _
        _ ≤ t.startOfLine j := startOfLine_mono hnj
    · rw [← hnone]
      exact lineEnd_mono (startOfLine_mono (Nat.le_of_lt hij))

/-- A character that two lines hold stands behind the start of the later one, so the earlier one goes
on over it. -/
theorem not_heldBy_iff (hij : i ≤ j) : (∀ k, HeldBy t i k → ¬HeldBy t j k) ↔
    t.lineEnd (t.startOfLine i) ≤ t.startOfLine j := by
  have hmono := startOfLine_mono (t := t) hij
  simp only [HeldBy, contentEnd_eq]
  constructor
  · intro h
    refine Nat.le_of_not_lt fun hlt => ?_
    refine h (t.startOfLine j) ⟨hmono, hlt⟩ ⟨Nat.le_refl _, ?_⟩
    rwa [lineEnd_eq_of_le hij (Nat.le_of_lt hlt)]
  · rintro h k ⟨-, hlt⟩ ⟨hle, -⟩
    omega

/-- **What a line holds, and the next.** In a text with any line breaks: what a line holds ends where
the next line starts or before exactly if the break between them is a newline, or ends in one, or the
next line holds nothing. And two lines hold no character in common exactly if one of the breaks between
them is of this kind, or the later one holds nothing. Where they do, they end at the same place. -/
theorem lineContent_stays (t : Text) (i : Nat) :
    (i + 1 < t.lineCount →
      (t.startOfLine i + (t.lineContent i).length ≤ t.startOfLine (i + 1) ↔
        EndsInNewline t i ∨ t.lineContent (i + 1) = [])) ∧
    ∀ j, i < j → j < t.lineCount →
      ((∀ k, HeldBy t i k → ¬HeldBy t j k) ↔
        (∃ n, i ≤ n ∧ n < j ∧ EndsInNewline t n) ∨ t.lineContent j = []) ∧
      (∀ k, HeldBy t i k → HeldBy t j k →
        t.startOfLine i + (t.lineContent i).length = t.startOfLine j + (t.lineContent j).length) := by
  refine ⟨fun hi => ?_, fun j hij hj => ⟨?_, fun k hk hk' => ?_⟩⟩
  · rw [contentEnd_eq, contents_apart_iff (Nat.lt_succ_self i) hi]
    refine or_congr_left ⟨?_, fun hbreak => ⟨i, Nat.le_refl i, Nat.lt_succ_self i, hbreak⟩⟩
    rintro ⟨n, hin, hni, hbreak⟩
    obtain rfl : n = i := Nat.le_antisymm (Nat.le_of_lt_succ hni) hin
    exact hbreak
  · rw [not_heldBy_iff (Nat.le_of_lt hij)]
    exact contents_apart_iff hij hj
  · simp only [HeldBy, contentEnd_eq] at hk hk' ⊢
    exact (lineEnd_eq_of_le (Nat.le_of_lt hij) (by omega)).symm

/-- A carriage return with its newline and a line separator: the first line stays on its line, the
second goes on over the third, and the first and the third have nothing in common. -/
theorem lineContent_stays_mixed :
    let t : Text := ['a', '\r', '\n', 'b', '\u2028', 'c']
    0 + 1 < t.lineCount ∧ 1 + 1 < t.lineCount ∧ (0 : Nat) < 2 ∧ 2 < t.lineCount ∧
      EndsInNewline t 0 ∧ t.startOfLine 0 + (t.lineContent 0).length ≤ t.startOfLine 1 ∧
      ¬EndsInNewline t 1 ∧ ¬t.startOfLine 1 + (t.lineContent 1).length ≤ t.startOfLine 2 ∧
      ∀ k, HeldBy t 0 k → ¬HeldBy t 2 k := by
  intro t
  have hfirst : EndsInNewline t 0 := by decide
  have hsecond : ¬EndsInNewline t 1 := by decide
  have hcontent : t.lineContent 2 ≠ [] := by decide
  refine ⟨by decide, by decide, by decide, by decide, hfirst, ?_, hsecond, ?_, ?_⟩
  · exact ((lineContent_stays t 0).1 (by decide)).2 (.inl hfirst)
  · exact fun h => (((lineContent_stays t 1).1 (by decide)).1 h).elim hsecond hcontent
  · exact (((lineContent_stays t 0).2 2 (by decide) (by decide)).1).2
      (.inl ⟨0, by decide, by decide, hfirst⟩)

/-- A carriage return starts a line, and the line before it holds both. -/
theorem lineContent_runs_over :
    let t : Text := ['a', '\r', 'b']
    0 + 1 < t.lineCount ∧ t.startOfLine 1 = 2 ∧ t.lineContent 0 = ['a', '\r', 'b'] ∧
      t.lineContent 1 = ['b'] ∧ ¬t.startOfLine 0 + (t.lineContent 0).length ≤ t.startOfLine 1 ∧
      HeldBy t 0 2 ∧ HeldBy t 1 2 := by
  decide

end VoiceEdit.Text
