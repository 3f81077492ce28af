import VoiceEdit.Editor.Keystroke
import VoiceEdit.Proofs.Text.Rows
import VoiceEdit.Proofs.Yields

/-!
# Up and down

A text is a grid of lines, of which a cursor has a row and a column. The keys up and down change the
row by one and keep the column, as far as the line they lead to goes. So one takes the other back,
unless a column was cut off on the way, and from the first line or the last they lead nowhere.

Results:

* `Text.IsPlace.unique`, `Text.exists_isPlace`: rows and columns are another way to count places.
* `Text.isPlace_lineBelow`, `Text.isPlace_lineAbove`: where the next line and the line before are met.
* `Editor.press_vertical`: the keys up and down.
-/
namespace VoiceEdit

namespace Text

variable {t : Text} {row column i j start stop start' stop' : Nat}

/-- `i` stands on line `row`, `column` characters behind its start. -/
def IsPlace (t : Text) (row column i : Nat) : Prop :=
  ∃ start stop, IsLine t row start stop ∧ start + column = i ∧ i ≤ stop

theorem IsPlace.unique (h : IsPlace t row column i) (h' : IsPlace t row column j) : i = j := by
  obtain ⟨start, stop, hline, hi, -⟩ := h
  obtain ⟨start', stop', hline', hj, -⟩ := h'
  rw [← hi, ← hj, (hline.unique hline').1]

/-- Every place in the text has a row, which is the number of newlines before it, and a column. -/
theorem exists_isPlace (hi : i ≤ t.length) : ∃ column, IsPlace t ((t.take i).count '\n') column i :=
  ⟨i - t.lineStart i, _, _, isLine_lineStart hi, Nat.add_sub_cancel' (t.lineStart_le i),
    t.le_lineEnd hi⟩

/-! ## The line below -/

/-- The line below is met in the same column, or at its end where it is shorter. -/
theorem isPlace_lineBelow (h : IsPlace t row column i) (hnext : IsLine t (row + 1) start' stop') :
    IsPlace t (row + 1) (min column (stop' - start')) (Arrow.lineBelow t i) := by
  obtain ⟨start, stop, hline, rfl, hle⟩ := h
  obtain ⟨hstart, hstop⟩ := hline.eq_lineStart (Nat.le_add_right start column) hle
  have hlt : stop < t.length := by
    refine Nat.lt_of_le_of_ne hline.stop_le fun hlast => ?_
    have hcount := hline.count_eq hline.start_le_stop (Nat.le_refl stop)
    rw [hlast, List.take_length] at hcount
    have := hnext.le_count
    omega
  obtain ⟨rfl, rfl⟩ := hnext.unique (hline.next hlt)
  have hne : ¬t.length ≤ stop := Nat.not_le_of_lt hlt
  have hwidth := hnext.start_le_stop
  have hvalue : Arrow.lineBelow t (start + column) =
      min (stop + 1 + column) (t.lineEnd (stop + 1)) := by
    simp only [Arrow.lineBelow, ← hstart, ← hstop, if_neg hne, Nat.add_sub_cancel_left]
  rw [hvalue]
  exact ⟨_, _, hnext, by omega, Nat.min_le_right _ _⟩

/-- Below the last line there is none. -/
theorem lineBelow_of_last (h : IsPlace t row column i)
    (hnone : ¬∃ start stop, IsLine t (row + 1) start stop) : Arrow.lineBelow t i = i := by
  obtain ⟨start, stop, hline, rfl, hle⟩ := h
  obtain ⟨-, hstop⟩ := hline.eq_lineStart (Nat.le_add_right start column) hle
  have hlast : t.length ≤ stop := Nat.le_of_not_lt fun hlt => hnone ⟨_, _, hline.next hlt⟩
  simp only [Arrow.lineBelow, ← hstop, if_pos hlast]

/-! ## The line above -/

/-- The line above is met in the same column, or at its end where it is shorter. -/
theorem isPlace_lineAbove (h : IsPlace t (row + 1) column i) (hprevious : IsLine t row start' stop') :
    IsPlace t row (min column (stop' - start')) (Arrow.lineAbove t i) := by
  obtain ⟨start, stop, hline, rfl, hle⟩ := h
  obtain ⟨hstart, -⟩ := hline.eq_lineStart (Nat.le_add_right start column) hle
  have hne : ¬start = 0 := Nat.ne_of_gt hline.pos_of_number
  obtain ⟨rfl, rfl⟩ := hprevious.unique hline.previous
  have hwidth := hprevious.start_le_stop
  have hvalue : Arrow.lineAbove t (start + column) =
      min (t.lineStart (start - 1) + column) (start - 1) := by
    simp only [Arrow.lineAbove, ← hstart, if_neg hne, Nat.add_sub_cancel_left]
  rw [hvalue]
  exact ⟨_, _, hprevious, by omega, Nat.min_le_right _ _⟩

/-- Above the first line there is none. -/
theorem lineAbove_of_first (h : IsPlace t 0 column i) : Arrow.lineAbove t i = i := by
  obtain ⟨start, stop, hline, rfl, hle⟩ := h
  obtain ⟨hstart, -⟩ := hline.eq_lineStart (Nat.le_add_right start column) hle
  have hzero := hline.start_eq_zero
  simp only [Arrow.lineAbove, ← hstart, if_pos hzero]

/-! ## There and back -/

theorem lineAbove_lineBelow (h : IsPlace t row column i) (hnext : IsLine t (row + 1) start' stop')
    (hlong : column ≤ stop' - start') : Arrow.lineAbove t (Arrow.lineBelow t i) = i := by
  have hplace := isPlace_lineBelow h hnext
  obtain ⟨start, stop, hline, hi, hle⟩ := h
  have hback := isPlace_lineAbove hplace hline
  rw [Nat.min_eq_left hlong, Nat.min_eq_left (by omega)] at hback
  exact hback.unique ⟨start, stop, hline, hi, hle⟩

theorem lineBelow_lineAbove (h : IsPlace t (row + 1) column i)
    (hprevious : IsLine t row start' stop') (hlong : column ≤ stop' - start') :
    Arrow.lineBelow t (Arrow.lineAbove t i) = i := by
  have hplace := isPlace_lineAbove h hprevious
  obtain ⟨start, stop, hline, hi, hle⟩ := h
  have hback := isPlace_lineBelow hplace hline
  rw [Nat.min_eq_left hlong, Nat.min_eq_left (by omega)] at hback
  exact hback.unique ⟨start, stop, hline, hi, hle⟩

end Text

namespace Editor

open Text (IsLine IsPlace)

variable {e : Editor} {a b : Arrow} {row column p : Nat}

/-- The key leads to a cursor on line `row`, `column` characters behind its start, and changes
nothing else. -/
def GoesTo (e : Editor) (a : Arrow) (row column : Nat) : Prop :=
  ∃ p, e.press (.go a) = .ok (e.moveTo p) ∧ IsPlace e.text row column p

/-- The keys lead to where the editor is. -/
def Returns (e : Editor) (a b : Arrow) : Prop :=
  (do (← e.press (.go a)).press (.go b)) = .ok e

theorem moveTo_self (hcursor : e.selection = .point p) : e.moveTo p = e := by
  rw [moveTo, ← hcursor]

theorem press_go (hcursor : e.selection = .point p) :
    e.press (.go a) = .ok (e.moveTo (a.target e.text (.point p))) := by
  rw [press, hcursor]
  rfl

/-- From a cursor the second key takes the first back if it leads from where that went to where it
came from. -/
theorem returns_of_target (hcursor : e.selection = .point p)
    (hback : b.target e.text (.point (a.target e.text (.point p))) = p) : e.Returns a b := by
  refine bind_eq_ok.2 ⟨_, press_go hcursor, (press_go rfl).trans (congrArg Except.ok ?_)⟩
  show e.moveTo (b.target e.text (.point (a.target e.text (.point p)))) = e
  rw [hback, moveTo_self hcursor]

/-- **Up and down.** A cursor in the text stands on the line numbered by the newlines before it, in
some column. Down leads to the next line, in the same column or at the end of the line if that is
shorter, and stays where it is if there is none. Up leads to the line before in the same way, which
there is unless the cursor stands on the first, where it stays. Where the line that it leads to is long
enough for the column, each of them is taken back by the other. -/
theorem press_vertical (e : Editor) (p row : Nat) (hcursor : e.selection = .point p)
    (hp : p ≤ e.text.length) (hrow : (e.text.take p).count '\n' = row) :
    ∃ column, IsPlace e.text row column p ∧
      (∀ start stop, IsLine e.text (row + 1) start stop →
        e.GoesTo .down (row + 1) (min column (stop - start)) ∧
          (column ≤ stop - start → e.Returns .down .up)) ∧
      ((¬∃ start stop, IsLine e.text (row + 1) start stop) → e.press (.go .down) = .ok e) ∧
      (∀ above, row = above + 1 → ∃ start stop, IsLine e.text above start stop ∧
        e.GoesTo .up above (min column (stop - start)) ∧
          (column ≤ stop - start → e.Returns .up .down)) ∧
      (row = 0 → e.press (.go .up) = .ok e) := by
  subst hrow
  obtain ⟨column, hplace⟩ := Text.exists_isPlace hp
  refine ⟨column, hplace, fun start stop hnext => ⟨?_, fun hlong => ?_⟩, fun hnone => ?_,
    fun above habove => ?_, fun hzero => ?_⟩
  · exact ⟨_, press_go hcursor, Text.isPlace_lineBelow hplace hnext⟩
  · exact returns_of_target hcursor (Text.lineAbove_lineBelow hplace hnext hlong)
  · have hstays : Arrow.down.target e.text (.point p) = p := Text.lineBelow_of_last hplace hnone
    rw [press_go hcursor, hstays, moveTo_self hcursor]
  · rw [habove] at hplace
    have ⟨start, stop, hline, _⟩ := hplace
    have hprevious := hline.previous
    exact ⟨_, _, hprevious, ⟨_, press_go hcursor, Text.isPlace_lineAbove hplace hprevious⟩,
      fun hlong => returns_of_target hcursor (Text.lineBelow_lineAbove hplace hprevious hlong)⟩
  · rw [hzero] at hplace
    have hstays : Arrow.up.target e.text (.point p) = p := Text.lineAbove_of_first hplace
    rw [press_go hcursor, hstays, moveTo_self hcursor]

/-- From the end of a line over a shorter one, which cuts the column off, to one that goes further
again. -/
theorem press_vertical_clamped :
    let t : Text := ['a', 'b', 'c', '\n', 'd', '\n', 'e', 'f', 'g']
    let e : Editor := { text := t, selection := .point 3 }
    let f : Editor := { text := t, selection := .point 5 }
    e.selection = .point 3 ∧ 3 ≤ t.length ∧ (t.take 3).count '\n' = 0 ∧
      f.selection = .point 5 ∧ 5 ≤ t.length ∧ (t.take 5).count '\n' = 1 ∧
      IsLine t 1 4 5 ∧ e.GoesTo .down 1 1 ∧ e.press (.go .up) = .ok e ∧
      IsLine t 2 6 9 ∧ f.GoesTo .down 2 1 ∧ f.Returns .down .up ∧ f.GoesTo .up 0 1 ∧
      f.Returns .up .down := by
  intro t e f
  have hsecond : IsLine t 1 4 5 := by decide
  have hthird : IsLine t 2 6 9 := by decide
  have hfirst : IsLine t 0 0 3 := by decide
  obtain ⟨three, hthree, hdown, -, -, hstays⟩ := press_vertical e 3 0 rfl (by decide) (by decide)
  obtain ⟨one, hone, hdown', -, hup', -⟩ := press_vertical f 5 1 rfl (by decide) (by decide)
  obtain ⟨a, b, hline, hcolumn, -⟩ := hthree
  obtain ⟨rfl, rfl⟩ := hline.unique hfirst
  obtain rfl : three = 3 := by omega
  obtain ⟨a, b, hline, hcolumn, -⟩ := hone
  obtain ⟨rfl, rfl⟩ := hline.unique hsecond
  obtain rfl : one = 1 := by omega
  obtain ⟨a, b, hline, hup, hback⟩ := hup' 0 rfl
  obtain ⟨rfl, rfl⟩ := hline.unique hfirst
  exact ⟨rfl, by decide, by decide, rfl, by decide, by decide, hsecond, (hdown 4 5 hsecond).1,
    hstays rfl, hthird, (hdown' 6 9 hthird).1, (hdown' 6 9 hthird).2 (by decide), hup,
    hback (by decide)⟩

end Editor

end VoiceEdit
