import VoiceEdit.Proofs.Text.Rescan

/-!
# Lines by their number

In a text whose only line breaks are newlines the number of a line is the number of newlines
before it. Each number up to the last is the number of exactly one line, and what is said of
lines by counting newlines is what the numbered lines of the text say.

Results:

* `IsLine.unique`: a number is the number of at most one line.
* `isLine_lineStart`, `IsLine.eq_lineStart`: every place lies on one line.
* `IsLine.next`, `IsLine.previous`: the lines on either side of a line.
* `lineOf_eq_count`, `lineCount_eq_count`: numbers are counts of newlines.
* `isLine_startOfLine`, `IsLine.eq_startOfLine`: the numbered lines are the lines.
* `indentation_eq_some_iff`, `indented_iff`: how far a line is indented.
-/
namespace VoiceEdit.Text

variable {t : Text} {cs : List Char} {pos n i j k s start stop start' stop' : Nat}

/-- Line `n` goes from `start` to `stop`: so many newlines stand before it, it holds none, and it
begins and ends at a newline or where the text does. -/
structure IsLine (t : Text) (n start stop : Nat) : Prop where
  number : (t.take start).count '\n' = n
  start_le_stop : start ≤ stop
  stop_le : stop ≤ t.length
  begins : start = 0 ∨ t[start - 1]? = some '\n'
  holds : ∀ i < stop, start ≤ i → t[i]? ≠ some '\n'
  ends : stop = t.length ∨ t[stop]? = some '\n'

instance (t : Text) (n start stop : Nat) : Decidable (IsLine t n start stop) :=
  decidable_of_iff ((t.take start).count '\n' = n ∧ start ≤ stop ∧ stop ≤ t.length ∧
      (start = 0 ∨ t[start - 1]? = some '\n') ∧ (∀ i < stop, start ≤ i → t[i]? ≠ some '\n') ∧
      (stop = t.length ∨ t[stop]? = some '\n'))
    ⟨fun ⟨h₁, h₂, h₃, h₄, h₅, h₆⟩ => ⟨h₁, h₂, h₃, h₄, h₅, h₆⟩,
      fun ⟨h₁, h₂, h₃, h₄, h₅, h₆⟩ => ⟨h₁, h₂, h₃, h₄, h₅, h₆⟩⟩

/-- Line `n` goes from `start` to `stop`, and its first character that is not white space has `k`
before it on the line. -/
structure IndentedLine (t : Text) (n k start stop : Nat) : Prop extends IsLine t n start stop where
  lt_stop : start + k < stop
  blank : ∀ i < start + k, start ≤ i → t.nextIs Unicode.isWhitespace i = true
  content : t.nextIs (fun c => !Unicode.isWhitespace c) (start + k) = true

/-- Line `n` is indented by `k` characters; a blank line is indented by no number of them. -/
def Indented (t : Text) (n k : Nat) : Prop := ∃ start stop, IndentedLine t n k start stop

/-- All line breaks are newlines. -/
def OnlyNewlines (t : List Char) : Prop := ∀ c ∈ t, isLineBreak c = true → c = '\n'

instance (t : List Char) : Decidable (OnlyNewlines t) :=
  List.decidableBAll (fun c => isLineBreak c = true → c = '\n') t

/-! ## Counting newlines -/

theorem count_take_succ (h : t[i]? = some '\n') :
    (t.take (i + 1)).count '\n' = (t.take i).count '\n' + 1 := by
  rw [List.take_add_one, h, List.count_append]
  rfl

theorem count_take_mono (h : i ≤ j) : (t.take i).count '\n' ≤ (t.take j).count '\n' :=
  ((List.take_prefix_take_left h).sublist).count_le '\n'

/-- A newline on the way makes the count greater. -/
theorem count_take_lt (hi : s ≤ i) (hj : i < j) (h : t[i]? = some '\n') :
    (t.take s).count '\n' < (t.take j).count '\n' :=
  calc (t.take s).count '\n' ≤ (t.take i).count '\n' := count_take_mono hi
    _ < (t.take (i + 1)).count '\n' := by
      rw [count_take_succ h]
      exact Nat.lt_succ_self _
    _ ≤ (t.take j).count '\n' := count_take_mono hj

/-- Without a newline on the way the count stays. -/
theorem count_take_eq (hij : i ≤ j) (h : ∀ k < j, i ≤ k → t[k]? ≠ some '\n') :
    (t.take j).count '\n' = (t.take i).count '\n' := by
  induction hij with
  | refl => rfl
  | @step j hij ih =>
    rw [List.take_add_one, List.count_append, ih fun k hk => h k (Nat.lt_succ_of_lt hk)]
    have hj := h j (Nat.lt_succ_self j) hij
    cases hc : t[j]? with
    | none => rfl
    | some c =>
      rw [Option.toList_some, List.count_singleton, if_neg, Nat.add_zero]
      intro heq
      exact hj (by rw [hc, beq_iff_eq.1 heq])

namespace IsLine

theorem unique (h : IsLine t n start stop) (h' : IsLine t n start' stop') :
    start = start' ∧ stop = stop' := by
  have starts {n a b a' b' : Nat} (h : IsLine t n a b) (h' : IsLine t n a' b') : ¬a < a' := by
    intro hlt
    rcases h'.begins with hzero | hbreak
    · omega
    · have hcount := count_take_lt (s := a) (j := a') (by omega) (by omega) hbreak
      rw [h.number, h'.number] at hcount
      omega
  have hstart : start = start' := Nat.le_antisymm
    (Nat.le_of_not_lt (starts h' h)) (Nat.le_of_not_lt (starts h h'))
  have stops {a b b' : Nat} (h : IsLine t n a b) (h' : IsLine t n a b') : ¬b < b' := by
    intro hlt
    rcases h.ends with hlast | hbreak
    · have := h'.stop_le
      omega
    · exact h'.holds b hlt h.start_le_stop hbreak
  subst hstart
  exact ⟨rfl, Nat.le_antisymm (Nat.le_of_not_lt (stops h' h)) (Nat.le_of_not_lt (stops h h'))⟩

/-- Every place on a line has so many newlines before it. -/
theorem count_eq (h : IsLine t n start stop) (hi : start ≤ i) (hle : i ≤ stop) :
    (t.take i).count '\n' = n := by
  rw [count_take_eq hi fun k hk => h.holds k (by omega), h.number]

theorem le_count (h : IsLine t n start stop) : n ≤ t.count '\n' := by
  rw [← h.number]
  exact (List.take_sublist _ _).count_le '\n'

end IsLine

/-! ## Lines by their places -/

/-- Before the end of the text a line ends at a newline. -/
theorem getElem?_lineEnd (hi : i ≤ t.length) (hlt : t.lineEnd i < t.length) :
    t[t.lineEnd i]? = some '\n' := by
  have hend := not_nextIs_lineEnd hi
  rw [nextIs, List.getElem?_eq_getElem hlt, Option.any_some] at hend
  rw [List.getElem?_eq_getElem hlt, Option.some.injEq]
  simpa using hend

/-- Behind a newline, or where the text begins, a line starts. -/
theorem isLine_of_begins (hstart : start ≤ t.length)
    (hbegins : start = 0 ∨ t[start - 1]? = some '\n') :
    IsLine t ((t.take start).count '\n') start (t.lineEnd start) := by
  refine ⟨rfl, t.le_lineEnd hstart, t.lineEnd_le_length _, hbegins, fun i hi hle hbreak => ?_, ?_⟩
  · rw [lineEnd_eq hstart] at hi
    have hrun := nextIs_of_lt_add_runAfter hle hi
    rw [nextIs, hbreak] at hrun
    cases hrun
  · rcases Nat.eq_or_lt_of_le (t.lineEnd_le_length start) with hlast | hlt
    · exact .inl hlast
    · exact .inr (getElem?_lineEnd hstart hlt)

/-- Every place lies on a line, numbered by the newlines before the place. -/
theorem isLine_lineStart (hi : i ≤ t.length) :
    IsLine t ((t.take i).count '\n') (t.lineStart i) (t.lineEnd i) := by
  have hle := t.lineStart_le i
  have hend := t.le_lineEnd hi
  have hbegins : t.lineStart i = 0 ∨ t[t.lineStart i - 1]? = some '\n' := by
    by_cases hzero : t.lineStart i = 0
    · exact .inl hzero
    · have hbefore := not_prevIs_lineStart hi
      rw [prevIs, prev?, if_neg hzero, List.getElem?_eq_getElem (by omega), Option.any_some] at hbefore
      refine .inr ?_
      rw [List.getElem?_eq_getElem (by omega), Option.some.injEq]
      simpa using hbefore
  have hline := isLine_of_begins (Nat.le_trans hle hi) hbegins
  rw [lineEnd_of_mem hi (Nat.le_refl _) (by omega)] at hline
  rwa [← hline.count_eq hle hend] at hline

namespace IsLine

/-- The line of a place is the only one that the place lies on. -/
theorem eq_lineStart (h : IsLine t n start stop) (hi : start ≤ i) (hle : i ≤ stop) :
    start = t.lineStart i ∧ stop = t.lineEnd i := by
  have hline := isLine_lineStart (Nat.le_trans hle h.stop_le)
  rw [h.count_eq hi hle] at hline
  exact h.unique hline

theorem pos_of_number (h : IsLine t (n + 1) start stop) : 0 < start := by
  refine Nat.pos_of_ne_zero fun hzero => ?_
  have hcount := h.number
  rw [hzero] at hcount
  cases hcount

/-- The first line starts where the text does. -/
theorem start_eq_zero (h : IsLine t 0 start stop) : start = 0 := by
  rcases h.begins with hzero | hbreak
  · exact hzero
  · refine Nat.eq_zero_of_not_pos fun hpos => ?_
    have hcount := count_take_lt (Nat.zero_le (start - 1)) (Nat.sub_lt hpos Nat.one_pos) hbreak
    rw [h.number] at hcount
    exact Nat.not_lt_zero _ hcount

/-- Behind the newline that ends a line starts the next one. -/
theorem next (h : IsLine t n start stop) (hlt : stop < t.length) :
    IsLine t (n + 1) (stop + 1) (t.lineEnd (stop + 1)) := by
  have hbreak : t[stop]? = some '\n' := h.ends.resolve_left (Nat.ne_of_lt hlt)
  have hline := isLine_of_begins (Nat.succ_le_of_lt hlt) (.inr hbreak)
  rwa [count_take_succ hbreak, h.count_eq h.start_le_stop (Nat.le_refl stop)] at hline

/-- The line before a later one ends at the newline that this one starts behind. -/
theorem previous (h : IsLine t (n + 1) start stop) : IsLine t n (t.lineStart (start - 1)) (start - 1) := by
  have hpos := h.pos_of_number
  have hbreak : t[start - 1]? = some '\n' := h.begins.resolve_left (Nat.ne_of_gt hpos)
  have hline := isLine_lineStart (Nat.le_of_lt (List.getElem?_eq_some_iff.1 hbreak).1)
  have hcount := count_take_succ hbreak
  rw [Nat.sub_add_cancel hpos, h.number, Nat.add_right_cancel_iff] at hcount
  rw [← hcount, lineEnd_eq_self (nextIs_iff.2 ⟨'\n', hbreak, rfl⟩)] at hline
  exact hline

end IsLine

/-! ## Numbered lines -/

theorem OnlyNewlines.tail {c : Char} (h : OnlyNewlines (c :: cs)) : OnlyNewlines cs :=
  fun a ha => h a (List.mem_cons_of_mem c ha)

theorem filter_le_eq_nil {starts : List Nat} (h : ∀ s ∈ starts, pos < s) :
    starts.filter (· ≤ pos) = [] :=
  List.filter_eq_nil_iff.2 fun s hs hle => Nat.not_le_of_lt (h s hs) (of_decide_eq_true hle)

/-- So many of the lines behind the first start up to a place as newlines stand before it. -/
theorem length_filter_lineStartsFrom (h : OnlyNewlines cs) :
    ((lineStartsFrom pos cs).filter (· ≤ pos + i)).length = (cs.take i).count '\n' := by
  fun_induction lineStartsFrom pos cs generalizing i with
  | case1 => simp
  | case2 pos rest => exact absurd (h '\r' (by simp) (by decide)) (by decide)
  | case3 pos c rest _ hbreak ih =>
    obtain rfl : c = '\n' := h c List.mem_cons_self hbreak
    cases i with
    | zero =>
      have hrest : ∀ s ∈ lineStartsFrom (pos + 1) rest, pos < s :=
        fun s hs => Nat.lt_of_succ_lt (mem_lineStartsFrom_le hs).1
      rw [Nat.add_zero, filter_le_eq_nil (List.forall_mem_cons.2 ⟨Nat.lt_succ_self pos, hrest⟩)]
      rfl
    | succ i =>
      rw [List.filter_cons_of_pos (by simp), List.length_cons, List.take_succ_cons,
        List.count_cons_self, ← ih h.tail, Nat.add_right_comm pos 1 i, Nat.add_assoc pos i 1]
  | case4 pos c rest _ hbreak ih =>
    cases i with
    | zero =>
      rw [Nat.add_zero, filter_le_eq_nil fun s hs => Nat.lt_of_succ_lt (mem_lineStartsFrom_le hs).1]
      rfl
    | succ i =>
      have hc : c ≠ '\n' := by
        rintro rfl
        exact hbreak (by decide)
      rw [List.take_succ_cons, List.count_cons_of_ne hc, ← ih h.tail,
        Nat.add_right_comm pos 1 i, Nat.add_assoc pos i 1]

/-- The line of a place is numbered by the newlines before the place. -/
theorem lineOf_eq_count (h : OnlyNewlines t) : t.lineOf i = (t.take i).count '\n' := by
  have hrest : ((lineStartsFrom 0 t).filter (· ≤ 0 + i)).length = (t.take i).count '\n' :=
    length_filter_lineStartsFrom h
  rw [Nat.zero_add] at hrest
  unfold lineOf lineStarts
  rw [List.filter_cons_of_pos (by simp), List.length_cons, hrest, Nat.add_sub_cancel]

theorem lineCount_eq_count (h : OnlyNewlines t) : t.lineCount = t.count '\n' + 1 := by
  have hrest : ((lineStartsFrom 0 t).filter (· ≤ 0 + t.length)).length =
      (t.take t.length).count '\n' := length_filter_lineStartsFrom h
  rw [List.take_length, List.filter_eq_self.2 fun s hs => decide_eq_true (mem_lineStartsFrom_le hs).2]
    at hrest
  rw [lineCount, lineStarts, List.length_cons, hrest]

/-- Behind each newline a line starts. -/
theorem exists_of_getElem?_lineStartsFrom (h : OnlyNewlines cs)
    (hn : (lineStartsFrom pos cs)[n]? = some s) :
    ∃ i, s = pos + i + 1 ∧ cs[i]? = some '\n' ∧ (cs.take i).count '\n' = n := by
  fun_induction lineStartsFrom pos cs generalizing n with
  | case1 => simp at hn
  | case2 pos rest => exact absurd (h '\r' (by simp) (by decide)) (by decide)
  | case3 pos c rest _ hbreak ih =>
    obtain rfl : c = '\n' := h c List.mem_cons_self hbreak
    cases n with
    | zero => exact ⟨0, by simpa using hn.symm, rfl, rfl⟩
    | succ n =>
      obtain ⟨i, rfl, hi, hcount⟩ := ih h.tail hn
      exact ⟨i + 1, by omega, hi, by rw [List.take_succ_cons, List.count_cons_self, hcount]⟩
  | case4 pos c rest _ hbreak ih =>
    have hc : c ≠ '\n' := by
      rintro rfl
      exact hbreak (by decide)
    obtain ⟨i, rfl, hi, hcount⟩ := ih h.tail hn
    exact ⟨i + 1, by omega, hi, by rw [List.take_succ_cons, List.count_cons_of_ne hc, hcount]⟩

/-- A numbered line has so many newlines before it, and begins behind one. -/
theorem startOfLine_spec (h : OnlyNewlines t) (hn : n ≤ t.count '\n') :
    (t.take (t.startOfLine n)).count '\n' = n ∧
      (t.startOfLine n = 0 ∨ t[t.startOfLine n - 1]? = some '\n') := by
  have hlt : n < t.lineStarts.length := by
    have := lineCount_eq_count h
    unfold lineCount at this
    omega
  have hstart : t.lineStarts[n]? = some (t.startOfLine n) := by
    rw [startOfLine, List.getElem?_eq_getElem hlt, Option.getD_some]
  cases n with
  | zero =>
    obtain hzero : 0 = t.startOfLine 0 := Option.some.inj hstart
    rw [← hzero]
    exact ⟨rfl, .inl rfl⟩
  | succ n =>
    obtain ⟨i, hs, hi, hcount⟩ := exists_of_getElem?_lineStartsFrom h hstart
    rw [hs, Nat.zero_add]
    exact ⟨by rw [count_take_succ hi, hcount], .inr hi⟩

theorem isLine_startOfLine (h : OnlyNewlines t) (hn : n ≤ t.count '\n') :
    IsLine t n (t.startOfLine n) (t.lineEnd (t.startOfLine n)) := by
  obtain ⟨hnumber, hbegins⟩ := startOfLine_spec h hn
  have hline := isLine_of_begins (startOfLine_le n) hbegins
  rwa [hnumber] at hline

/-- The line of a number is where the numbered lines have it. -/
theorem IsLine.eq_startOfLine (h : OnlyNewlines t) (hline : IsLine t n start stop) :
    start = t.startOfLine n ∧ stop = t.lineEnd (t.startOfLine n) :=
  hline.unique (isLine_startOfLine h hline.le_count)

/-! ## Indentation -/

theorem length_lineContent (t : Text) (n : Nat) :
    (t.lineContent n).length = t.lineEnd (t.startOfLine n) - t.startOfLine n := by
  have hlen := t.lineEnd_le_length (t.startOfLine n)
  simp only [lineContent, contentBounds, List.length_take, length_after]
  omega

theorem getElem?_lineContent {start : Nat} (hstart : t.startOfLine n = start)
    (hi : start + i < t.lineEnd start) : (t.lineContent n)[i]? = t[start + i]? := by
  subst hstart
  simp only [lineContent, contentBounds]
  rw [List.getElem?_take_of_lt (by omega), after, List.getElem?_drop]

/-- The indentation of a line, said of the places in the text. -/
theorem indentation_eq_some_iff {start : Nat} (hstart : t.startOfLine n = start) :
    indentation (t.lineContent n) = some k ↔
      start + k < t.lineEnd start ∧
        (∀ i < start + k, start ≤ i → t.nextIs Unicode.isWhitespace i = true) ∧
        t.nextIs (fun c => !Unicode.isWhitespace c) (start + k) = true := by
  have hlen := t.length_lineContent n
  rw [hstart] at hlen
  have char {i : Nat} (hi : i < (t.lineContent n).length) :
      t[start + i]? = some (t.lineContent n)[i] := by
    rw [← getElem?_lineContent hstart (by omega), List.getElem?_eq_getElem hi]
  rw [indentation, List.findIdx?_eq_some_iff_getElem]
  constructor
  · rintro ⟨hk, hcontent, hblank⟩
    refine ⟨by omega, fun i hi hle => ?_, nextIs_iff.2 ⟨_, char hk, hcontent⟩⟩
    have hspace := hblank (i - start) (by omega)
    refine nextIs_iff.2 ⟨(t.lineContent n)[i - start], ?_, by simpa using hspace⟩
    rw [← char (by omega), Nat.add_sub_cancel' hle]
  · rintro ⟨hk, hblank, hcontent⟩
    have hlt : k < (t.lineContent n).length := by omega
    obtain ⟨c, hc, hsolid⟩ := nextIs_iff.1 hcontent
    refine ⟨hlt, ?_, fun i hi => ?_⟩
    · rw [char hlt, Option.some.injEq] at hc
      rw [hc]
      exact hsolid
    · obtain ⟨c, hc, hspace⟩ := nextIs_iff.1 (hblank (start + i) (by omega) (by omega))
      rw [char (by omega), Option.some.injEq] at hc
      rw [hc, hspace]
      exact Bool.false_ne_true

/-- Which of the numbered lines are indented, and how far. -/
theorem indented_iff (h : OnlyNewlines t) :
    Indented t n k ↔ n < t.lineCount ∧ indentation (t.lineContent n) = some k := by
  rw [lineCount_eq_count h]
  constructor
  · rintro ⟨start, stop, hline⟩
    obtain ⟨hstart, hstop⟩ := hline.eq_startOfLine h
    rw [← hstart] at hstop
    refine ⟨Nat.lt_succ_of_le hline.le_count, (indentation_eq_some_iff hstart.symm).2 ?_⟩
    rw [← hstop]
    exact ⟨hline.lt_stop, hline.blank, hline.content⟩
  · rintro ⟨hn, hk⟩
    obtain ⟨hlt, hblank, hcontent⟩ := (indentation_eq_some_iff rfl).1 hk
    exact ⟨_, _, isLine_startOfLine h (Nat.le_of_lt_succ hn), hlt, hblank, hcontent⟩

end VoiceEdit.Text
