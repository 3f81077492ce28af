import VoiceEdit.Target
import VoiceEdit.Text.Basic

/-!
# String literals

A literal is written between two delimiters; a tripled delimiter opens a literal that
only a tripled one closes. A delimiter behind a backslash is a character like any
other. `around?` looks at the delimiters next to a span only, `all` reads the text
from its start, so that delimiters pair up.

Results:

* `mem_literalsFrom_bounds`: a literal lies in the text, its contents between its delimiters.
-/
namespace VoiceEdit

/-- A literal from `start` to `stop` whose delimiters are `width` characters wide. -/
structure Literal where
  start : Nat
  width : Nat
  stop : Nat
deriving DecidableEq, Repr

namespace Literal

/-- All of the literal, and its contents. -/
def spans (l : Literal) : Except Span.Error (Span × Span) := do
  let outer ← Span.ofBounds l.start l.stop
  let inner ← Span.ofBounds (l.start + l.width) (l.stop - l.width)
  return (outer, inner)

/-- The target that selects the contents; deleting takes the delimiters along. -/
def target (l : Literal) : Except Span.Error Target := do
  let (outer, inner) ← l.spans
  Target.withRemoval inner outer

/-- `width` delimiters begin here, and no backslash stands before them. -/
def delimits (q : Char) (width : Nat) (prev : Option Char) (t : List Char) : Bool :=
  t.take width == List.replicate width q && prev != some '\\'

/-- The first place where `width` delimiters stand, in a text that begins at `pos`. -/
def closeFrom? (q : Char) (width pos : Nat) (prev : Option Char) : List Char → Option Nat
  | [] => none
  | c :: rest =>
    if delimits q width prev (c :: rest) then some pos
    else closeFrom? q width (pos + 1) (some c) rest

/-- The last delimiter of a text read backwards. -/
def lastDelimiter? (q : Char) : List Char → Option Nat
  | [] => none
  | c :: rest =>
    if delimits q 1 rest.head? [c] then some rest.length else lastDelimiter? q rest

/-- The literal between the delimiters next to `s`. -/
def around? (t : Text) (q : Char) (s : Span) : Option Literal := do
  let left ← lastDelimiter? q (t.before s.start)
  let right ← closeFrom? q 1 s.stop (t.prev? s.stop) (t.after s.stop)
  return ⟨left, 1, right + 1⟩

/-- The literals of a text that begins at `pos`, behind `skip` characters of a literal
already read. An opener that nothing closes ends the reading. -/
def literalsFrom (q : Char) : Nat → Nat → Option Char → List Char → List Literal
  | _, _, _, [] => []
  | skip + 1, pos, _, c :: rest => literalsFrom q skip (pos + 1) (some c) rest
  | 0, pos, prev, c :: rest =>
    if delimits q 1 prev (c :: rest) then
      let width := if (c :: rest).take 3 == [q, q, q] then 3 else 1
      match closeFrom? q width (pos + width) (some q) ((c :: rest).drop width) with
      | none => []
      | some close =>
        ⟨pos, width, close + width⟩ ::
          literalsFrom q (close + width - (pos + 1)) (pos + 1) (some c) rest
    else literalsFrom q 0 (pos + 1) (some c) rest

/-- Every literal of the text, in order. -/
def all (t : Text) (q : Char) : List Literal := literalsFrom q 0 0 none t

/-- The literals of the text, each of which must have its spans, whether it is looked for or not. -/
def checked (t : Text) (q : Char) : Except Span.Error (List Literal) := do
  let _ ← (all t q).mapM spans
  return all t q

/-- The first literal that starts on the line of `s` or later. -/
def first? (t : Text) (q : Char) (s : Span) : Except Span.Error (Option Literal) := do
  return (← checked t q).find? fun l => decide (t.lineStart s.start ≤ l.start)

/-- The first literal that starts behind `s`. -/
def next? (t : Text) (q : Char) (s : Span) : Except Span.Error (Option Literal) := do
  return (← checked t q).find? fun l => decide (s.stop ≤ l.start)

/-- The last literal that ends before `s`. -/
def previous? (t : Text) (q : Char) (s : Span) : Except Span.Error (Option Literal) := do
  return (← checked t q).reverse.find? fun l => decide (l.stop ≤ s.start)

/-! ## Laws -/

theorem closeFrom?_bounds {q : Char} {width pos n : Nat} {prev : Option Char} {t : List Char}
    (h : closeFrom? q width pos prev t = some n) : pos ≤ n ∧ n + width ≤ pos + t.length := by
  induction t generalizing pos prev with
  | nil => cases h
  | cons c rest ih =>
    simp only [closeFrom?] at h
    split at h
    · rename_i hd
      cases h
      simp only [delimits, Bool.and_eq_true, beq_iff_eq] at hd
      have := congrArg List.length hd.1
      simp only [List.length_take, List.length_replicate] at this
      omega
    · have := ih h
      simp; omega

/-- A literal lies in the text, its contents between its delimiters. -/
theorem mem_literalsFrom_bounds {q : Char} {skip pos : Nat} {prev : Option Char} {t : List Char}
    {l : Literal} (h : l ∈ literalsFrom q skip pos prev t) :
    pos + skip ≤ l.start ∧ 0 < l.width ∧ l.start + l.width ≤ l.stop - l.width ∧
      l.width ≤ l.stop ∧ l.stop ≤ pos + t.length := by
  induction t generalizing skip pos prev with
  | nil => simp [literalsFrom] at h
  | cons c rest ih =>
    cases skip with
    | succ skip =>
      have := ih h
      simp; omega
    | zero =>
      simp only [literalsFrom] at h
      split at h
      · split at h
        · simp at h
        · rename_i close hclose
          have hb := closeFrom?_bounds hclose
          rcases List.mem_cons.1 h with rfl | h
          · simp only [List.length_drop, List.length_cons] at hb ⊢
            refine ⟨by simp, by split <;> decide, ?_, ?_, ?_⟩ <;> omega
          · have := ih h
            simp; omega
      · have := ih h
        simp; omega

end Literal

end VoiceEdit
