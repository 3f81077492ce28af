import VoiceEdit.Text.CharClass
import VoiceEdit.Text.Basic

/-!
# Numbered lines

Lines are counted from zero and end at any line break (`isLineBreak`). What a line
holds (`lineContent`) runs from its start to the next newline, so it goes on through
the other line breaks.

Results:

* `mem_lineStarts_le`: lines start in the text.
-/
namespace VoiceEdit.Text

/-- Where lines start after the first, in a text that begins at offset `pos`. -/
def lineStartsFrom (pos : Nat) : List Char → List Nat
  | [] => []
  | '\r' :: '\n' :: rest => (pos + 2) :: lineStartsFrom (pos + 2) rest
  | c :: rest =>
    if isLineBreak c then (pos + 1) :: lineStartsFrom (pos + 1) rest
    else lineStartsFrom (pos + 1) rest

/-- Where each line starts. -/
def lineStarts (t : Text) : List Nat := 0 :: lineStartsFrom 0 t

def lineCount (t : Text) : Nat := t.lineStarts.length

/-- Where line `n` starts; the end of the text for the line after the last. -/
def startOfLine (t : Text) (n : Nat) : Nat := t.lineStarts[n]?.getD t.length

/-- The number of the line that `i` lies on. -/
def lineOf (t : Text) (i : Nat) : Nat := (t.lineStarts.filter (· ≤ i)).length - 1

/-- The span from the start of line `n` to the next newline. -/
def contentBounds (t : Text) (n : Nat) : Nat × Nat :=
  (t.startOfLine n, t.lineEnd (t.startOfLine n))

/-- The characters from the start of line `n` to the next newline. -/
def lineContent (t : Text) (n : Nat) : Text :=
  let (start, stop) := t.contentBounds n
  (t.after start).take (stop - start)

/-- How far a line is indented: the offset of its first character that is not white
space, `none` for a blank line. -/
def indentation (line : Text) : Option Nat := line.findIdx? fun c => !Unicode.isWhitespace c

/-! ## Laws -/

theorem mem_lineStartsFrom_le {pos n : Nat} {t : List Char} (h : n ∈ lineStartsFrom pos t) :
    pos < n ∧ n ≤ pos + t.length := by
  fun_induction lineStartsFrom pos t with
  | case1 => simp at h
  | case2 pos rest ih =>
    rcases List.mem_cons.1 h with rfl | h
    · simp
    · have := ih h; simp; omega
  | case3 pos c rest _ _ ih =>
    rcases List.mem_cons.1 h with rfl | h
    · simp
    · have := ih h; simp; omega
  | case4 pos c rest _ _ ih => have := ih h; simp; omega

theorem mem_lineStarts_le {n : Nat} {t : Text} (h : n ∈ t.lineStarts) : n ≤ t.length := by
  rcases List.mem_cons.1 h with rfl | h
  · exact Nat.zero_le _
  · have := mem_lineStartsFrom_le h; omega

end VoiceEdit.Text
