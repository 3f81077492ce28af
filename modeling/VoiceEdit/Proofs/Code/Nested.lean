import VoiceEdit.Code.Argument
import VoiceEdit.Code.Block
import VoiceEdit.Code.Bracket
import VoiceEdit.Code.Call
import VoiceEdit.Proofs.Text.Lines
import VoiceEdit.Proofs.Yields

/-!
# Nested structures lie in the text

Calls, arguments, brackets and blocks are found by scans that count how deep they are.
Whatever the text holds, balanced or not, a scan that reports a place reports one it has
read, so the spans between such places are in order and lie in the text.

Results:

* `Call.finds_at?`: a call is found in the text or not at all.
* `Argument.finds_around?`, `Argument.finds_atAnchor?`: arguments and what goes with them.
* `Bracket.enclosing?_bounds`: a pair closes behind its opener.
* `Block.finds_indented?`, `Block.finds_braced?`: both layouts of a block.
-/
namespace VoiceEdit

variable {t : Text} {s : Span}

/-! ## Calls -/

namespace Call

theorem finds_at? (ht : t.length ≤ Span.limit) (opener : Nat) : FindsSpan t (at? t opener) := by
  unfold at?
  by_cases harguments : (!opensArguments t opener) = true
  · rw [if_pos harguments]
    exact findsSpan_none
  · rw [if_neg harguments]
    cases hclose : t.closing? (· == '(') (· == ')') opener with
    | none => exact findsSpan_none
    | some closer =>
      obtain ⟨hlt, hlen⟩ := Text.closing?_bounds hclose
      have hstart := calleeStart_le t opener
      simp only
      by_cases hempty : calleeStart t opener = opener
      · rw [if_pos hempty]
        exact findsSpan_none
      · rw [if_neg hempty]
        refine Yields.findsSpan ((yields_ofBounds (by omega) (by omega)).mono fun s hs => ?_)
        omega

theorem whole?_le (ht : t.length ≤ Span.limit) {opener : Nat} (h : whole? t opener = some s) :
    s.stop ≤ t.length := by
  obtain ⟨o, ho, hstop⟩ := finds_at? ht opener
  unfold whole? at h
  rw [ho] at h
  exact hstop s h

theorem finds_around? (ht : t.length ≤ Span.limit) : FindsSpan t (around? t s) := by
  unfold around?
  cases openerAt? t s.start with
  | none => exact findsSpan_none
  | some opener => exact finds_at? ht opener

theorem mem_callsFrom_le (ht : t.length ≤ Span.limit) {i : Nat} (h : s ∈ callsFrom t i) :
    s.stop ≤ t.length := by
  obtain ⟨opener, -, hs⟩ := List.mem_filterMap.1 h
  exact whole?_le ht hs

theorem mem_callsBefore_le (ht : t.length ≤ Span.limit) {i : Nat} (h : s ∈ callsBefore t i) :
    s.stop ≤ t.length := by
  obtain ⟨opener, -, hs⟩ := List.mem_filterMap.1 h
  exact whole?_le ht hs

end Call

/-! ## Arguments -/

namespace Argument

variable {i n : Nat}

theorem leftBoundary?_lt (h : leftBoundary? t i = some n) : n < i := by
  obtain ⟨k, hk, rfl⟩ := Option.map_eq_some_iff.1 h
  have := exitOffset_lt hk
  rw [t.length_before] at this
  omega

theorem rightBoundary?_bounds (h : rightBoundary? t i = some n) : i ≤ n ∧ n < t.length := by
  obtain ⟨k, hk, rfl⟩ := Option.map_eq_some_iff.1 h
  have := exitOffset_lt hk
  rw [t.length_after] at this
  omega

theorem finds_around? (ht : t.length ≤ Span.limit) (hs : s.stop ≤ t.length) :
    Finds t (around? t s) := by
  have hle := s.start_le_stop
  unfold around?
  extract_lets left right separator
  by_cases hnone : (left.isNone && right.isNone) = true
  · rw [if_pos hnone]
    exact finds_none
  · rw [if_neg hnone]
    have hleft : (left.map (· + 1)).getD 0 ≤ s.start := by
      cases hl : left with
      | none => exact Nat.zero_le _
      | some l => exact leftBoundary?_lt hl
    have hright : s.stop ≤ right.getD t.length ∧ right.getD t.length ≤ t.length := by
      cases hr : right with
      | none => exact ⟨hs, Nat.le_refl _⟩
      | some r =>
        have := rightBoundary?_bounds hr
        exact ⟨this.1, Nat.le_of_lt this.2⟩
    have hbounds : (left.map (· + 1)).getD 0 ≤ right.getD t.length := by omega
    obtain ⟨h₁, h₂, h₃⟩ := Text.trimmedBounds_le (t := t) hbounds
    rcases htrim : t.trimmedBounds ((left.map (· + 1)).getD 0) (right.getD t.length) with
      ⟨start, stop⟩
    simp only [htrim] at h₁ h₂ h₃ ⊢
    refine (yields_ofBounds h₂ (by omega)).bind fun span hspan => ?_
    -- The removal reaches to the separator on the left, else behind the one on the right.
    have finish (removal : Option Span) (hr : Removes t span removal) :
        Finds t (do return some (← Target.withRemoval? span removal)) :=
      (yields_withRemoval? (by omega) hr).finds
    cases hl : separator left with
    | some l =>
      rw [(Option.filter_eq_some_iff.1 hl).1, Option.map_some, Option.getD_some] at h₁
      exact (yields_removal ht (by omega) (by omega) (by omega)).bind finish
    | none =>
      cases hr : separator right with
      | some r =>
        have hr' := (Option.filter_eq_some_iff.1 hr).1
        have hlt := (rightBoundary?_bounds hr').2
        have hrun := t.add_runAfter_le isBlank (Nat.succ_le_of_lt hlt)
        rw [hr', Option.getD_some] at h₃
        exact (yields_removal ht (by omega) (by omega) hrun).bind finish
      | none => exact finish none removes_none

theorem nextBoundary?_lt (h : nextBoundary? t i = some n) : n < t.length := by
  obtain ⟨k, hk, rfl⟩ := Option.map_eq_some_iff.1 h
  have := boundaryOffset_lt hk
  rw [t.length_after] at this
  omega

theorem previousBoundary?_lt (h : previousBoundary? t i = some n) : n < i := by
  obtain ⟨k, hk, rfl⟩ := Option.map_eq_some_iff.1 h
  have := boundaryOffset_lt hk
  rw [t.length_before] at this
  omega

theorem finds_atAnchor? {o : Option Nat} (ht : t.length ≤ Span.limit)
    (ho : ∀ anchor ∈ o, anchor ≤ t.length) : Finds t (atAnchor? t o) := by
  cases o with
  | none => exact finds_none
  | some anchor => exact finds_around? ht (ho anchor rfl)

theorem finds_first (ht : t.length ≤ Span.limit) (hs : s.stop ≤ t.length) :
    Finds t (first t s) := by
  have hle := s.start_le_stop
  refine finds_atAnchor? ht fun anchor hanchor => ?_
  obtain ⟨opener, ho, rfl⟩ := Option.map_eq_some_iff.1 hanchor
  rcases Option.or_eq_some_iff.1 ho with ho | ⟨-, ho⟩
  · have := Text.mem_groupsAround_lt (List.mem_of_head? ho)
    omega
  · exact nextBoundary?_lt (Option.filter_eq_some_iff.1 ho).1

theorem finds_next (ht : t.length ≤ Span.limit) : Finds t (next t s) := by
  refine finds_atAnchor? ht fun anchor hanchor => ?_
  obtain ⟨boundary, hb, rfl⟩ := Option.map_eq_some_iff.1 hanchor
  exact nextBoundary?_lt hb

theorem finds_previous (ht : t.length ≤ Span.limit) (hs : s.stop ≤ t.length) :
    Finds t (previous t s) := by
  have hle := s.start_le_stop
  refine finds_atAnchor? ht fun anchor hanchor => ?_
  have := previousBoundary?_lt hanchor
  omega

end Argument

/-! ## Brackets -/

namespace Bracket

variable {b : Bracket} {ms : List Mark} {pos : Nat}

/-- A pair closes behind its opener, in the text. -/
theorem enclosing?_bounds {stop : Nat} {w : Waiting} {before : List Mark} {o : Nat × Nat}
    (h : enclosing? ms stop w before = some o) : o.1 < o.2 ∧ o.2 < ms.length := by
  induction before generalizing w with
  | nil => cases h
  | cons m rest ih =>
    cases m with
    | plain => exact ih h
    | closes b => exact ih h
    | opens b =>
      rw [enclosing?] at h
      cases hw : w.count b with
      | succ n =>
        rw [hw] at h
        exact ih h
      | zero =>
        rw [hw] at h
        simp only at h
        cases hclose : (closeOffset? b (ms.drop (rest.length + 1))).map (rest.length + 1 + ·) with
        | none =>
          rw [hclose] at h
          exact ih h
        | some closer =>
          rw [hclose] at h
          simp only at h
          by_cases hstop : stop ≤ closer + 1
          · rw [if_pos hstop] at h
            cases h
            obtain ⟨n, hn, rfl⟩ := Option.map_eq_some_iff.1 hclose
            have hlt := exitOffset_lt hn
            rw [List.length_drop] at hlt
            simp only
            omega
          · rw [if_neg hstop] at h
            exact ih h

theorem finds_around? (ht : t.length ≤ Span.limit) : FindsSpan t (around? t s) := by
  unfold around?
  simp only
  cases hpair : enclosing? (marks t) s.stop {} ((marks t).take s.start).reverse with
  | none => exact findsSpan_none
  | some o =>
    obtain ⟨hlt, hlen⟩ := enclosing?_bounds hpair
    rw [length_marks] at hlen
    refine Yields.findsSpan ((yields_ofBounds (by omega) (by omega)).mono fun s hs => ?_)
    omega

theorem firstPairFrom?_le (h : firstPairFrom? pos ms = some s) : s.stop ≤ pos + ms.length := by
  induction ms generalizing pos with
  | nil => cases h
  | cons m rest ih =>
    have later (h : firstPairFrom? (pos + 1) rest = some s) : s.stop ≤ pos + (m :: rest).length := by
      have := ih h
      rw [List.length_cons]
      omega
    cases m with
    | plain => exact later h
    | closes b => exact later h
    | opens b =>
      rw [firstPairFrom?] at h
      split at h
      · rename_i pair hpair
        cases h
        obtain ⟨n, hn, hpair⟩ := Option.bind_eq_some_iff.1 hpair
        have hlt := exitOffset_lt hn
        have := (Span.bounds_of_toOption hpair).2
        rw [List.length_cons]
        omega
      · exact later h

theorem lastPairIn?_le (h : lastPairIn? ms = some s) : s.stop ≤ ms.length := by
  induction ms with
  | nil => cases h
  | cons m rest ih =>
    have later (h : lastPairIn? rest = some s) : s.stop ≤ (m :: rest).length :=
      Nat.le_succ_of_le (ih h)
    cases m with
    | plain => exact later h
    | opens b => exact later h
    | closes b =>
      rw [lastPairIn?] at h
      split at h
      · rename_i pair hpair
        cases h
        obtain ⟨o, -, hpair⟩ := Option.bind_eq_some_iff.1 hpair
        exact Nat.le_of_eq (Span.bounds_of_toOption hpair).2
      · exact later h

theorem pairFrom?_le {i : Nat} (hi : i ≤ t.length) (h : pairFrom? t i = some s) :
    s.stop ≤ t.length := by
  have hle := firstPairFrom?_le h
  rw [List.length_drop, length_marks] at hle
  omega

theorem previous?_le {p : Span} (h : previous? t s = some p) : p.stop ≤ t.length := by
  have hle := lastPairIn?_le h
  rw [List.length_reverse, List.length_take, length_marks] at hle
  omega

end Bracket

/-! ## Blocks -/

namespace Block

/-- What a list of indentations says of a line. -/
theorem indentation_eq_some {indents : List (Option Nat)} {n k : Nat}
    (h : indents = (List.range t.lineCount).map fun n => Text.indentation (t.lineContent n))
    (hn : indents[n]?.join = some k) : Text.indentation (t.lineContent n) = some k := by
  rw [Option.join_eq_some_iff, h, List.getElem?_map] at hn
  obtain ⟨line, hline, hk⟩ := Option.map_eq_some_iff.1 hn
  obtain ⟨hlt, heq⟩ := List.getElem?_eq_some_iff.1 hline
  rw [List.getElem_range] at heq
  subst heq
  exact hk

/-- A line starts and is indented before it ends. -/
theorem add_indent_le (indents : List (Option Nat)) (n : Nat)
    (h : indents = (List.range t.lineCount).map fun n => Text.indentation (t.lineContent n)) :
    t.startOfLine n + (indents[n]?.join).getD 0 ≤ t.lineEnd (t.startOfLine n) := by
  cases hn : indents[n]?.join with
  | none => exact t.le_lineEnd (Text.startOfLine_le n)
  | some k => exact Nat.le_of_lt (Text.add_indentation_lt_lineEnd (indentation_eq_some h hn))

theorem finds_indented? (ht : t.length ≤ Span.limit) : Finds t (indented? t s) := by
  unfold indented?
  extract_lets indents indentOf
  split
  · exact finds_none
  · rename_i anchor hanchor
    extract_lets level first last start stop
    have hfirst : start + indentOf first ≤ t.lineEnd start := add_indent_le indents first rfl
    have hlast : first ≤ last := Nat.le_trans (Nat.sub_le _ _) (Nat.le_add_right _ _)
    have hlines : t.lineEnd start ≤ stop := Text.lineEnd_mono (Text.startOfLine_mono hlast)
    have hstop : stop ≤ t.length := t.lineEnd_le_length _
    refine (yields_ofBounds (by omega) (by omega)).bind fun span hspan => ?_
    refine (yields_ofBounds (by omega) (by omega)).bind fun removal hremoval => ?_
    exact (yields_withRemoval (by omega) (by omega) (by omega)).finds

/-- The body of a group lies before its closer. -/
theorem yields_body {opener closer : Nat} (ht : t.length ≤ Span.limit) (h : opener < closer)
    (hl : closer < t.length) : Yields (body t opener closer) (·.stop ≤ t.length) := by
  unfold body
  extract_lets start start₁ start₂
  have h₁ : start₁ ≤ closer := by omega
  have h₂ : start₂ ≤ closer := by
    by_cases hbreak : start₁ < closer ∧ t[start₁]? = some '\n'
    · rw [show start₂ = start₁ + 1 from if_pos hbreak]
      exact hbreak.1
    · rw [show start₂ = start₁ from if_neg hbreak]
      exact h₁
  exact (yields_ofBounds (by omega) (by omega)).mono fun s hs => by omega

theorem finds_bodyAround? (ht : t.length ≤ Span.limit) (openers : List Nat) :
    FindsSpan t (bodyAround? t s openers) := by
  induction openers with
  | nil => exact findsSpan_none
  | cons opener outer ih =>
    rw [bodyAround?]
    cases hclose : t.closing? (· == '{') (· == '}') opener with
    | none => exact ih
    | some closer =>
      obtain ⟨hlt, hlen⟩ := Text.closing?_bounds hclose
      refine (yields_body ht hlt hlen).bind fun found hfound => ?_
      by_cases hheld : found ≠ s ∧ found.contains s = true
      · rw [if_pos hheld]
        exact ⟨some found, rfl, fun f hf => by cases hf; exact hfound⟩
      · rw [if_neg hheld]
        exact ih

theorem finds_braced? (ht : t.length ≤ Span.limit) : FindsSpan t (braced? t s) :=
  finds_bodyAround? ht _

end Block

end VoiceEdit
