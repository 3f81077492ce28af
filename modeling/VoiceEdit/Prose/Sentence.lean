import VoiceEdit.Target
import VoiceEdit.Text.CharClass
import VoiceEdit.Text.Basic

/-!
# Sentences and clauses

A sentence ends with a run of terminators or before a line break, a clause before any
punctuation. Deleting one takes up to two spaces along, the ones behind it if there are
any.

Results:

* `startAt_le_length`: a sentence starts in the text.
-/
namespace VoiceEdit

inductive SentenceKind where
  | sentence
  | clause
deriving DecidableEq, Repr

namespace SentenceKind

def isDelimiter : SentenceKind → Char → Bool
  | .sentence, c => isSentenceDelimiter c
  | .clause, c => isClauseDelimiter c

/-- White space that does not delimit. -/
def isLeading (k : SentenceKind) (c : Char) : Bool := Unicode.isWhitespace c && !k.isDelimiter c

/-- What lies between two sentences. -/
def isBetween (k : SentenceKind) (c : Char) : Bool := Unicode.isWhitespace c || k.isDelimiter c

end SentenceKind

namespace Sentence

variable (k : SentenceKind) (t : Text)

/-- Where the sentence that holds `i` starts, behind the white space before it. -/
def startAt (i : Nat) : Nat :=
  let start := i - t.runBefore (!k.isDelimiter ·) i
  start + t.runAfter k.isLeading start

/-- Where the sentence that starts at `start` and whose delimiter is at `delimiter`
ends. -/
def stopAt (start delimiter : Nat) : Nat :=
  if k = .sentence ∧ t.nextIs isSentenceTerminator delimiter = true then
    delimiter + t.runAfter isSentenceTerminator delimiter
  else delimiter - min (t.runBefore isBlank delimiter) (delimiter - start)

/-- What deleting a sentence removes. -/
def removal? (s : Span) : Except Span.Error (Option Span) :=
  let trailing := min (t.runAfter (· == ' ') s.stop) 2
  let leading := min (t.runBefore (· == ' ') s.start) 2
  if 0 < trailing then some <$> Span.ofBounds s.start (s.stop + trailing)
  else if 0 < leading then some <$> Span.ofBounds (s.start - leading) s.stop
  else return none

/-- The sentence that holds `s`. -/
def around (s : Span) : Except Span.Error Target := do
  let start := startAt k t s.start
  let probe := max s.lastOffset start
  let delimiter := probe + t.runAfter (!k.isDelimiter ·) probe
  let span ← Span.ofBounds start (min (stopAt k t start delimiter) t.length)
  Target.withRemoval? span (← removal? t span)

/-- The sentence behind the one that holds the end of `s`. -/
def next? (s : Span) : Except Span.Error (Option Target) := do
  let pos :=
    if !s.isEmpty && t.prevIs k.isDelimiter s.stop then s.stop
    else s.stop + t.runAfter (!k.isDelimiter ·) s.stop
  let pos := pos + t.runAfter k.isBetween pos
  if t.length ≤ pos then return none
  return some (← around k t (.point pos))

/-- The sentence before the one that holds the start of `s`. -/
def previous? (s : Span) : Except Span.Error (Option Target) := do
  let pos := startAt k t s.start
  let pos := pos - t.runBefore k.isBetween pos
  if pos = 0 then return none
  return some (← around k t (.point (pos - 1)))

/-! ## Laws -/

theorem startAt_le_length {i : Nat} (h : i ≤ t.length) : startAt k t i ≤ t.length := by
  simp only [startAt]
  exact t.add_runAfter_le _ (Nat.le_trans (Nat.sub_le _ _) h)

end Sentence

end VoiceEdit
