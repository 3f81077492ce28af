import VoiceEdit.Target
import VoiceEdit.Text.Chunks
import VoiceEdit.Text.Nesting

/-!
# Arguments

An argument lies between two separators of its call, or between one and the end of the
call's group. Deleting it takes one of its separators along, the left one if there is
one. Stepping visits the arguments of a call in turn and enters every call it comes to.

Results:

* `boundaryOffset_lt`: a step ends at a character it has read.
-/
namespace VoiceEdit.Argument

/-- The separator or the opener that bounds an argument on the left. -/
def leftBoundary? (t : Text) (i : Nat) : Option Nat :=
  (exitOffset isCloseGroup isOpenGroup isSeparator 0 (t.before i)).map (i - 1 - ·)

/-- The separator or the closer that bounds an argument on the right. -/
def rightBoundary? (t : Text) (i : Nat) : Option Nat :=
  (exitOffset isOpenGroup isCloseGroup isSeparator 0 (t.after i)).map (i + ·)

/-- The argument around `s`; nothing where neither side is bounded. -/
def around? (t : Text) (s : Span) : Except Span.Error (Option Target) := do
  let left := leftBoundary? t s.start
  let right := rightBoundary? t s.stop
  if left.isNone && right.isNone then return none
  let (start, stop) := t.trimmedBounds ((left.map (· + 1)).getD 0) (right.getD t.length)
  let span ← Span.ofBounds start stop
  let separator? (boundary : Option Nat) := boundary.filter (t.nextIs isSeparator)
  let removal ← match separator? left, separator? right with
    | some left, _ => some <$> Span.ofBounds left stop
    | none, some right =>
      some <$> Span.ofBounds start (right + 1 + t.runAfter isBlank (right + 1))
    | none, none => pure none
  return some (← Target.withRemoval? span removal)

/-- How many characters a step passes before it comes to a call (`entry`), or to a
separator of the group it began in. Once it has left that group only a call stops it. -/
def boundaryOffset (entry : Char) (enter leave : Char → Bool) :
    Nat → Bool → List Char → Option Nat
  | _, _, [] => none
  | depth, left, c :: rest =>
    if c = entry then some 0
    else if enter c then (boundaryOffset entry enter leave (depth + 1) left rest).map (· + 1)
    else if leave c then
      match depth with
      | 0 => (boundaryOffset entry enter leave 0 true rest).map (· + 1)
      | depth + 1 => (boundaryOffset entry enter leave depth left rest).map (· + 1)
    else if isSeparator c && depth == 0 && !left then some 0
    else (boundaryOffset entry enter leave depth left rest).map (· + 1)

/-- The next parenthesis that opens, or separator of this call, from `i` on. -/
def nextBoundary? (t : Text) (i : Nat) : Option Nat :=
  (boundaryOffset '(' isOpenGroup isCloseGroup 0 false (t.after i)).map (i + ·)

/-- The last parenthesis that closes, or separator of this call, before `i`. -/
def previousBoundary? (t : Text) (i : Nat) : Option Nat :=
  (boundaryOffset ')' isCloseGroup isOpenGroup 0 false (t.before i)).map (i - 1 - ·)

/-- The argument at `anchor`, where a step has led to one. -/
def atAnchor? (t : Text) : Option Nat → Except Span.Error (Option Target)
  | none => return none
  | some anchor => around? t (.point anchor)

/-- The first argument of the call around `s`, or of the next call when it is the
first thing behind `s`. -/
def first (t : Text) (s : Span) : Except Span.Error (Option Target) :=
  atAnchor? t <|
    ((t.unclosedBefore? (· == '(') (· == ')') s.start).or
      ((nextBoundary? t s.stop).filter (t.nextIs (· == '(')))).map (· + 1)

/-- The next argument of this call, or the first of the next call. -/
def next (t : Text) (s : Span) : Except Span.Error (Option Target) :=
  atAnchor? t ((nextBoundary? t s.stop).map (· + 1))

/-- The previous argument of this call, or the last of the previous call. -/
def previous (t : Text) (s : Span) : Except Span.Error (Option Target) :=
  atAnchor? t (previousBoundary? t s.start)

/-! ## Laws -/

theorem boundaryOffset_lt {entry : Char} {enter leave : Char → Bool} {depth n : Nat} {left : Bool}
    {cs : List Char} (h : boundaryOffset entry enter leave depth left cs = some n) :
    n < cs.length := by
  fun_induction boundaryOffset entry enter leave depth left cs generalizing n with
  | case1 => cases h
  | case2 | case6 => cases h; simp
  | case3 _ _ _ _ _ _ ih | case4 _ _ _ _ _ _ ih | case5 _ _ _ _ _ _ _ ih | case7 _ _ _ _ _ _ _ _ ih =>
    obtain ⟨m, hm, rfl⟩ := Option.map_eq_some_iff.1 h
    have := ih hm; simp; omega

end VoiceEdit.Argument
