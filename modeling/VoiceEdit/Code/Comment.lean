import VoiceEdit.Settings
import VoiceEdit.Target
import VoiceEdit.Text.Chunks
import VoiceEdit.Text.Lines

/-!
# Comments

A comment has a body, without the white space around it, and a span that runs from the
blanks before its marker to its end. Block comments are read marker by marker, each
from the start of the text; a line has at most one line comment, which a marker in a
string, in a URL or in a block comment does not begin.

Results:

* `findFrom?_bounds`: a closing marker is found in the text.
-/
namespace VoiceEdit

structure Comment where
  body : Span
  span : Span
deriving DecidableEq, Repr

namespace Comment

/-- The target that selects the body; deleting takes the whole comment. -/
def target (c : Comment) : Except Span.Error Target := Target.withRemoval c.body c.span

/-- The comment with its body in `start`..`stop`, its marker at `marker` and its end at
`last`. -/
def ofParts (t : Text) (marker start stop last : Nat) : Except Span.Error Comment := do
  let (first, stop) := t.trimmedBounds start stop
  let body ← Span.ofBounds first stop
  let span ← Span.ofBounds (marker - t.runBefore isBlank marker) last
  return ⟨body, span⟩

/-! ## Block comments -/

/-- The first place where `pat` stands in a text that begins at `pos`; its end does not
count as a place. -/
def findFrom? (pat : Text) (pos : Nat) : List Char → Option Nat
  | [] => none
  | c :: rest => if pat.isPrefixOf (c :: rest) then some pos else findFrom? pat (pos + 1) rest

/-- The marker and the close of each block comment in a text that begins at `pos`,
behind `skip` characters already read. An opener that nothing closes ends the reading. -/
def blocksFrom (m : BlockMarker) : Nat → Nat → List Char → List (Nat × Nat)
  | _, _, [] => []
  | skip + 1, pos, _ :: rest => blocksFrom m skip (pos + 1) rest
  | 0, pos, c :: rest =>
    if m.start.isPrefixOf (c :: rest) then
      match findFrom? m.stop (pos + m.start.length) ((c :: rest).drop m.start.length) with
      | none => []
      | some close =>
        (pos, close) :: blocksFrom m (close + m.stop.length - (pos + 1)) (pos + 1) rest
    else blocksFrom m 0 (pos + 1) rest

/-- The block comments of one kind. A marker with an empty end marks nothing. -/
def blocksOf (t : Text) (m : BlockMarker) : Except Span.Error (List Comment) :=
  if m.start.isEmpty || m.stop.isEmpty then return []
  else (blocksFrom m 0 0 t).mapM fun (marker, close) =>
    ofParts t marker (marker + m.start.length) close (close + m.stop.length)

/-- The block comments of every kind, kind by kind. -/
def blocks (t : Text) (settings : Settings) : Except Span.Error (List Comment) := do
  return (← settings.blockMarkers.mapM (blocksOf t)).flatten

/-! ## Line comments -/

/-- The marker that begins a comment here: the first that stands here, unless it
starts with two slashes behind a colon, as in a URL. -/
def markerAt? (markers : List Text) (prev : Option Char) (t : List Char) : Option Text :=
  markers.find? fun m =>
    m.isPrefixOf t && !(['/', '/'].isPrefixOf m && prev == some ':')

/-- The position and length of the first comment marker among the next `count`
characters that stands outside double quotes; `pos` is the offset of the first. -/
def lineMarkerFrom? (markers : List Text) :
    Nat → Bool → Nat → Option Char → List Char → Option (Nat × Nat)
  | 0, _, _, _, _ => none
  | _, _, _, _, [] => none
  | count + 1, quoted, pos, prev, c :: rest =>
    if c = '"' ∧ prev ≠ some '\\' then lineMarkerFrom? markers count (!quoted) (pos + 1) (some c) rest
    else if quoted then lineMarkerFrom? markers count quoted (pos + 1) (some c) rest
    else match markerAt? markers prev (c :: rest) with
      | some m => some (pos, m.length)
      | none => lineMarkerFrom? markers count quoted (pos + 1) (some c) rest

/-- The line comment of line `n`, unless it begins in one of the `blocks`. -/
def lineComment? (t : Text) (markers : List Text) (blocks : List Comment) (n : Nat) :
    Except Span.Error (Option Comment) :=
  let (start, stop) := t.contentBounds n
  match lineMarkerFrom? markers (stop - start) false start (t.prev? start) (t.after start) with
  | none => return none
  | some (marker, width) =>
    if blocks.any fun b => decide (b.span.start ≤ marker) && decide (marker < b.span.stop) then
      return none
    else some <$> ofParts t marker (marker + width) stop stop

/-! ## All comments -/

/-- Every comment of the text, by where its span starts. -/
def all (t : Text) (settings : Settings) : Except Span.Error (List Comment) := do
  let blocks ← blocks t settings
  let lines ← (List.range t.lineCount).mapM (lineComment? t settings.markersByLength blocks)
  return (blocks ++ lines.filterMap id).mergeSort fun a b => decide (a.span.start ≤ b.span.start)

/-- The comment at the start of `s`, else the first one on its line. -/
def around? (t : Text) (settings : Settings) (s : Span) : Except Span.Error (Option Comment) := do
  let comments ← all t settings
  let start := t.lineStart s.start
  let stop := t.lineEnd s.start
  return (comments.find? (·.span.touches s.start)).or
    (comments.find? fun c => decide (start ≤ c.span.start) && decide (c.span.start < stop))

/-- The first comment that starts on the line of `s` or later. -/
def first? (t : Text) (settings : Settings) (s : Span) : Except Span.Error (Option Comment) := do
  return (← all t settings).find? fun c => decide (t.lineStart s.start ≤ c.span.start)

/-- The first comment that starts behind `s`. -/
def next? (t : Text) (settings : Settings) (s : Span) : Except Span.Error (Option Comment) := do
  return (← all t settings).find? fun c => decide (s.stop ≤ c.span.start)

/-- The last comment that ends before `s`. -/
def previous? (t : Text) (settings : Settings) (s : Span) : Except Span.Error (Option Comment) := do
  return (← all t settings).reverse.find? fun c => decide (c.span.stop ≤ s.start)

/-! ## Laws -/

/-- A closing marker is found in the text. -/
theorem findFrom?_bounds {pat : Text} {pos n : Nat} {t : List Char}
    (h : findFrom? pat pos t = some n) : pos ≤ n ∧ n + pat.length ≤ pos + t.length := by
  induction t generalizing pos with
  | nil => cases h
  | cons c rest ih =>
    simp only [findFrom?] at h
    split at h
    · rename_i hp
      cases h
      have := (List.isPrefixOf_iff_prefix.1 hp).length_le
      simp only [List.length_cons] at this ⊢
      omega
    · have := ih h
      simp; omega

end Comment

end VoiceEdit
