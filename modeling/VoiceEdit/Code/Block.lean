import VoiceEdit.Target
import VoiceEdit.Text.Lines
import VoiceEdit.Text.Nesting

/-!
# Blocks of code

Two ways to lay out a block. An indented block is the lines around a position that are
indented at least as far as the line there; blank lines inside belong to it, blank
lines at its ends do not. A braced block is what stands between two braces.

Results:

* `solid_le`: the part of a run that ends in a line with content is no longer than the run.
-/
namespace VoiceEdit.Block

/-! ## Indented blocks -/

/-- The length of a run without the blank lines at its end. -/
def solid (run : List (Option Nat)) : Nat := (run.reverse.dropWhile (·.isNone)).length

/-- How many of the lines, going away from the anchor, belong to a block of `level`. -/
def extent (level : Nat) (lines : List (Option Nat)) : Nat :=
  solid (lines.takeWhile fun indent => indent.all fun n => decide (level ≤ n))

/-- The line a block is found from: the nearest with content at or above line `n`, else
the nearest below. -/
def anchor? (indents : List (Option Nat)) (n : Nat) : Option Nat :=
  ((List.range (n + 1)).reverse.find? fun line => (indents[line]?.join).isSome).or
    ((List.range indents.length).find? fun line => decide (n < line) && (indents[line]?.join).isSome)

/-- The indented block that `s` starts in; nothing in a text of blank lines. Deleting
takes whole lines. -/
def indented? (t : Text) (s : Span) : Except Span.Error (Option Target) := do
  let indents := (List.range t.lineCount).map fun n => Text.indentation (t.lineContent n)
  match anchor? indents (t.lineOf s.start) with
  | none => return none
  | some anchor =>
    let indentOf (line : Nat) := (indents[line]?.join).getD 0
    let level := indentOf anchor
    let first := anchor - extent level (indents.take anchor).reverse
    let last := anchor + extent level (indents.drop (anchor + 1))
    let start := t.startOfLine first
    let stop := t.lineEnd (t.startOfLine last)
    let span ← Span.ofBounds (start + indentOf first) stop
    let removal ← Span.ofBounds start (min (stop + 1) t.length)
    return some (← Target.withRemoval span removal)

/-! ## Braced blocks -/

/-- What stands between the braces at `opener` and `closer`: from behind the line break
that follows `{`, up to the indentation of the line that holds `}`. -/
def body (t : Text) (opener closer : Nat) : Except Span.Error Span :=
  let start := opener + 1
  let start := start + min (t.runAfter isBlank start) (closer - start)
  let start := if start < closer ∧ t[start]? = some '\n' then start + 1 else start
  Span.ofBounds start (closer - min (t.runBefore isBlank closer) (closer - start))

/-- The first of the groups whose body holds `s` and more than `s`. -/
def bodyAround? (t : Text) (s : Span) : List Nat → Except Span.Error (Option Span)
  | [] => return none
  | opener :: outer =>
    match t.closing? (· == '{') (· == '}') opener with
    | none => bodyAround? t s outer
    | some closer => do
      let found ← body t opener closer
      if found ≠ s ∧ found.contains s then return some found else bodyAround? t s outer

/-- The body of the innermost braces around `s`. -/
def braced? (t : Text) (s : Span) : Except Span.Error (Option Span) :=
  bodyAround? t s (t.groupsAround (· == '{') (· == '}') s.start)

/-! ## Laws -/

theorem solid_le (run : List (Option Nat)) : solid run ≤ run.length := by
  have := (List.dropWhile_suffix (l := run.reverse) (·.isNone)).length_le
  simpa [solid] using this

end VoiceEdit.Block
