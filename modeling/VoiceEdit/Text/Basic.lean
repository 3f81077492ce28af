import VoiceEdit.Span

/-!
# Text

A text is its list of characters, and a position is the number of characters before
it. From a position a scan reads forwards through `after` or backwards through
`before`, nearest character first; on `before` the position of a character is the
length of what follows it in the list.

Results:

* `runAfter_le`, `runBefore_le`: runs stay in the text.
* `lineStart_le`, `le_lineEnd`, `lineEnd_le_length`: a line holds the position it is asked for.
-/
namespace VoiceEdit

abbrev Text := List Char

namespace Text

variable (t : Text) (p : Char → Bool) (i : Nat)

/-- The characters before `i`, nearest first. -/
def before : List Char := (t.take i).reverse

/-- The characters from `i` on. -/
def after : List Char := t.drop i

/-- The character just before `i`. -/
def prev? : Option Char := if i = 0 then none else t[i - 1]?

/-- `i` has a character before it that satisfies `p`. -/
def prevIs : Bool := (t.prev? i).any p

/-- `i` has a character at it that satisfies `p`. -/
def nextIs : Bool := t[i]?.any p

/-- How many characters in a row satisfy `p` from `i` on. -/
def runAfter : Nat := ((t.after i).takeWhile p).length

/-- How many characters in a row satisfy `p` before `i`. -/
def runBefore : Nat := ((t.before i).takeWhile p).length

/-- The characters of `t` that `s` covers. -/
def slice (s : Span) : Text := (t.drop s.start).take s.length

/-- The characters of `t` that `s` covers, refused when `s` ends beyond the text. -/
def extract (s : Span) : Except Span.Error Text := do
  s.checkWithin t.length
  return t.slice s

/-- `pat` stands at `i`. -/
def startsAt (pat : Text) : Bool := decide (i ≤ t.length) && pat.isPrefixOf (t.after i)

/-- Where the line of `i` starts; a line ends at a newline. -/
def lineStart : Nat :=
  let i := min i t.length
  i - t.runBefore (· != '\n') i

/-- Where the line of `i` ends, before its newline. -/
def lineEnd : Nat :=
  let i := min i t.length
  i + t.runAfter (· != '\n') i

/-- `t` with the characters of `s` replaced by `new`. -/
def replace (s : Span) (new : Text) : Text := t.take s.start ++ new ++ t.drop s.stop

/-! ## Laws -/

theorem length_before : (t.before i).length = min i t.length := by simp [before]

theorem length_after : (t.after i).length = t.length - i := by simp [after]

theorem runAfter_le : t.runAfter p i ≤ t.length - i := by
  have := (List.takeWhile_prefix p (l := t.after i)).length_le
  simpa [runAfter, after] using this

theorem runBefore_le : t.runBefore p i ≤ i := by
  have := (List.takeWhile_prefix p (l := t.before i)).length_le
  simp only [length_before] at this
  unfold runBefore
  omega

theorem add_runAfter_le {i : Nat} (h : i ≤ t.length) : i + t.runAfter p i ≤ t.length := by
  have := t.runAfter_le p i
  omega

theorem lineStart_le : t.lineStart i ≤ i := by
  unfold lineStart
  have := Nat.min_le_left i t.length
  simp only
  omega

theorem lineEnd_le_length : t.lineEnd i ≤ t.length :=
  t.add_runAfter_le _ (Nat.min_le_right i t.length)

theorem le_lineEnd {i : Nat} (h : i ≤ t.length) : i ≤ t.lineEnd i := by
  unfold lineEnd
  simp only [Nat.min_eq_left h]
  omega

theorem length_replace {s : Span} (h : s.stop ≤ t.length) (new : Text) :
    (t.replace s new).length = t.length - s.length + new.length := by
  have := s.start_le_stop
  simp only [replace, Span.length, List.length_append, List.length_take, List.length_drop]
  omega

/-- Replacing no characters by none changes nothing. -/
theorem replace_empty {s : Span} (h : s.start = s.stop) : t.replace s [] = t := by
  simp only [replace, h, List.append_nil, List.take_append_drop]

theorem replace_middle {s : Span} (xs ys zs : Text) (hstart : s.start = xs.length)
    (hstop : s.stop = xs.length + ys.length) : replace (xs ++ (ys ++ zs)) s [] = xs ++ zs := by
  rw [replace, hstart, hstop, List.take_left, List.append_nil, ← List.append_assoc,
    List.drop_left' List.length_append]

/-- Deleting the back of a span and then its front is deleting the span. -/
theorem replace_back_front {front back s : Span} (h₁ : front.start = s.start)
    (h₂ : front.stop = back.start) (h₃ : back.stop = s.stop) (h : s.stop ≤ t.length) :
    (t.replace back []).replace front [] = t.replace s [] := by
  have hf := front.start_le_stop
  have hb := back.start_le_stop
  have hlen : (t.take back.start).length = back.start := by
    rw [List.length_take]; omega
  simp only [replace, List.append_nil]
  rw [List.take_append_of_le_length (by omega), List.take_take, Nat.min_eq_left (by omega),
    List.drop_left' (by omega), h₁, h₃]

/-- Deleting a span and writing where it stood is replacing it. -/
theorem replace_point_start {s : Span} (h : s.stop ≤ t.length) (new : Text) :
    (t.replace s []).replace (.point s.start) new = t.replace s new := by
  have hs := s.start_le_stop
  have hlen : (t.take s.start).length = s.start := by rw [List.length_take]; omega
  simp only [replace, List.append_nil, Span.start_point, Span.stop_point]
  rw [List.take_left' hlen, List.drop_left' hlen]

theorem extract_eq_ok {s : Span} (h : s.stop ≤ t.length) : t.extract s = .ok (t.slice s) := by
  simp [extract, Span.checkWithin_eq_ok_iff.2 h, bind, Except.bind, pure, Except.pure]

end Text

end VoiceEdit
