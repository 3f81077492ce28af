import VoiceEdit.Target
import VoiceEdit.Text.Nesting

/-!
# Bracket pairs

Four kinds of brackets, each nesting by itself. An angle bracket that is part of a
comparison or an arrow is not a bracket, which the characters next to it tell, so a
text is first read as a list of `Mark`s.

Results:

* `length_marks`: every character has its mark.
-/
namespace VoiceEdit

inductive Bracket where
  | round
  | square
  | curly
  | angle
deriving DecidableEq, Repr

/-- What a character does to the nesting of brackets. -/
inductive Mark where
  | opens (b : Bracket)
  | closes (b : Bracket)
  | plain
deriving DecidableEq, Repr

namespace Bracket

/-- The mark of `c` between its neighbours: `a < b`, `x -> y` and `k => v` have no
brackets. -/
def mark (prev : Option Char) (c : Char) (next : Option Char) : Mark :=
  match c with
  | '(' => .opens round
  | ')' => .closes round
  | '[' => .opens square
  | ']' => .closes square
  | '{' => .opens curly
  | '}' => .closes curly
  | '<' => if next = some ' ' then .plain else .opens angle
  | '>' => if prev.any fun p => p == ' ' || p == '-' || p == '=' then .plain else .closes angle
  | _ => .plain

def marksFrom (prev : Option Char) : List Char → List Mark
  | [] => []
  | c :: rest => mark prev c rest.head? :: marksFrom (some c) rest

/-- The marks of a text, character by character. -/
def marks (t : Text) : List Mark := marksFrom none t

def isOpener (b : Bracket) (m : Mark) : Bool := m == .opens b

def isCloser (b : Bracket) (m : Mark) : Bool := m == .closes b

/-- How many marks stand before the one that closes the pair, read from behind its
opener. -/
def closeOffset? (b : Bracket) (behind : List Mark) : Option Nat :=
  exitOffset b.isOpener b.isCloser (fun _ => false) 0 behind

/-- The position of the mark that opens the pair, read backwards from its closer. -/
def openPosition? (b : Bracket) (before : List Mark) : Option Nat :=
  (unclosed b.isOpener b.isCloser 0 before).head?

/-- How many closers of each kind wait for their openers. -/
structure Waiting where
  round : Nat := 0
  square : Nat := 0
  curly : Nat := 0
  angle : Nat := 0
deriving DecidableEq, Repr

namespace Waiting

def count (w : Waiting) : Bracket → Nat
  | .round => w.round
  | .square => w.square
  | .curly => w.curly
  | .angle => w.angle

def set (w : Waiting) (n : Nat) : Bracket → Waiting
  | .round => { w with round := n }
  | .square => { w with square := n }
  | .curly => { w with curly := n }
  | .angle => { w with angle := n }

theorem count_set (w : Waiting) (n : Nat) (a b : Bracket) :
    (w.set n a).count b = if b = a then n else w.count b := by
  cases a <;> cases b <;> rfl

end Waiting

/-- Reads backwards for the first pair that opens here and closes at or behind `stop`:
its opener and its closer. `ms` are the marks of the whole text. -/
def enclosing? (ms : List Mark) (stop : Nat) : Waiting → List Mark → Option (Nat × Nat)
  | _, [] => none
  | w, .plain :: rest => enclosing? ms stop w rest
  | w, .closes b :: rest => enclosing? ms stop (w.set (w.count b + 1) b) rest
  | w, .opens b :: rest =>
    match w.count b with
    | n + 1 => enclosing? ms stop (w.set n b) rest
    | 0 =>
      let opener := rest.length
      match (closeOffset? b (ms.drop (opener + 1))).map (opener + 1 + ·) with
      | some closer => if stop ≤ closer + 1 then some (opener, closer) else enclosing? ms stop w rest
      | none => enclosing? ms stop w rest

/-- The innermost pair around `s`, brackets included. -/
def around? (t : Text) (s : Span) : Except Span.Error (Option Span) := do
  let ms := marks t
  match enclosing? ms s.stop {} (ms.take s.start).reverse with
  | some (opener, closer) => some <$> Span.ofBounds opener (closer + 1)
  | none => return none

/-- The first balanced pair that opens at or behind `pos`, where the list begins. -/
def firstPairFrom? (pos : Nat) : List Mark → Option Span
  | .opens b :: rest =>
    match (closeOffset? b rest).bind fun n => (Span.ofBounds pos (pos + 1 + n + 1)).toOption with
    | some pair => some pair
    | none => firstPairFrom? (pos + 1) rest
  | _ :: rest => firstPairFrom? (pos + 1) rest
  | [] => none

/-- The last balanced pair that closes before the position the list is read back from. -/
def lastPairIn? : List Mark → Option Span
  | .closes b :: rest =>
    match (openPosition? b rest).bind fun o => (Span.ofBounds o (rest.length + 1)).toOption with
    | some pair => some pair
    | none => lastPairIn? rest
  | _ :: rest => lastPairIn? rest
  | [] => none

def pairFrom? (t : Text) (i : Nat) : Option Span := firstPairFrom? i ((marks t).drop i)

/-- The first pair that opens on the line of `s` or later. -/
def first? (t : Text) (s : Span) : Option Span := pairFrom? t (t.lineStart s.start)

/-- The first pair that opens behind `s`. -/
def next? (t : Text) (s : Span) : Option Span := pairFrom? t s.stop

/-- The last pair that closes before `s`. -/
def previous? (t : Text) (s : Span) : Option Span := lastPairIn? ((marks t).take s.start).reverse

/-! ## Laws -/

theorem length_marksFrom (prev : Option Char) (t : List Char) :
    (marksFrom prev t).length = t.length := by
  induction t generalizing prev with
  | nil => rfl
  | cons c rest ih => simp [marksFrom, ih]

/-- Every character has its mark. -/
theorem length_marks (t : Text) : (marks t).length = t.length := length_marksFrom none t

end Bracket

end VoiceEdit
