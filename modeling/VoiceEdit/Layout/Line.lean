import VoiceEdit.Target
import VoiceEdit.Text.CharClass
import VoiceEdit.Text.Basic

/-!
# Lines and words between white space

The stretches of text that layout alone marks off: the lines a span lies on, their
edges, and the characters between two pieces of white space.

Results:

* `startOf_le`, `stopOf_le_length`: the edges of a line lie in the text.
-/
namespace VoiceEdit.Line

/-- The lines that `s` lies on, with the newline behind them when `withBreak`. -/
def around (t : Text) (withBreak : Bool) (s : Span) : Except Span.Error Span :=
  let start := t.lineStart s.start
  let stop := t.lineEnd (max s.lastOffset start)
  Span.ofBounds start (if withBreak then min (stop + 1) t.length else stop)

/-- The start of the line that `s` starts on. -/
def startOf (t : Text) (s : Span) : Nat := t.lineStart s.start

/-- The end of the line that `s` ends on. -/
def stopOf (t : Text) (s : Span) : Nat := t.lineEnd s.lastOffset

/-- What stands around `s` between white space. Deleting it takes the blanks behind it
along, or else those before it. -/
def betweenWhitespace (t : Text) (s : Span) : Except Span.Error Target := do
  let start := s.start - t.runBefore (!isLayout ·) s.start
  let stop := s.stop + t.runAfter (!isLayout ·) s.stop
  let span ← Span.ofBounds start stop
  let trailing := t.runAfter isBlank stop
  let removal ←
    if 0 < trailing then Span.ofBounds start (stop + trailing)
    else Span.ofBounds (start - t.runBefore isBlank start) stop
  Target.withRemoval span removal

/-! ## Laws -/

theorem startOf_le (t : Text) (s : Span) : startOf t s ≤ s.start := t.lineStart_le s.start

theorem stopOf_le_length (t : Text) (s : Span) : stopOf t s ≤ t.length :=
  t.lineEnd_le_length s.lastOffset

end VoiceEdit.Line
