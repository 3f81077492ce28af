import VoiceEdit.Target
import VoiceEdit.Text.CharClass
import VoiceEdit.Text.Basic

/-!
# Tokens

A token is a maximal run of word characters. Deleting one takes along the comma or
space that would be left over.

Results:

* `bounds_eq_ok`: the tokens at the edges of a span in the text make it wider, in the text.
-/
namespace VoiceEdit.Token

/-- The span from `start` to `stop`, widened to the whole tokens at its edges. -/
def bounds (t : Text) (start stop : Nat) : Except Span.Error Span :=
  Span.ofBounds (start - t.runBefore isWord start) (stop + t.runAfter isWord stop)

/-- What deleting a token removes: a comma and space behind it, else a comma or space
behind it, else the space before a token that ends a sentence or the text. -/
def removal? (t : Text) (token : Span) : Option Span :=
  let upTo (stop : Nat) := (Span.ofBounds token.start stop).toOption
  let next := t[token.stop]?
  if next = some ',' then
    if t[token.stop + 1]? = some ' ' then upTo (token.stop + 2) else upTo (token.stop + 1)
  else if next = some ' ' then upTo (token.stop + 1)
  else if next.all isSentenceTerminator && t.prevIs (· == ' ') token.start then
    (Span.ofBounds (token.start - 1) token.stop).toOption
  else none

/-- The target that selects a token. -/
def target (t : Text) (token : Span) : Except Span.Error Target :=
  Target.withRemoval? token (removal? t token)

/-- `i` lies between two characters of one token. -/
def inside (t : Text) (i : Nat) : Bool := t.prevIs isWord i && t.nextIs isWord i

/-- The first token that starts behind `s`. -/
def next (t : Text) (s : Span) : Except Span.Error (Option Target) := do
  let pos := s.stop
  let pos := if inside t pos then pos + t.runAfter isWord pos else pos
  let pos := pos + t.runAfter (!isWord ·) pos
  if t.length ≤ pos then return none
  return some (← target t (← bounds t pos pos))

/-- The last token that ends before `s`. -/
def previous (t : Text) (s : Span) : Except Span.Error (Option Target) := do
  let pos := s.start
  let pos := if inside t pos then pos - t.runBefore isWord pos else pos
  let pos := pos - t.runBefore (!isWord ·) pos
  if pos = 0 then return none
  return some (← target t (← bounds t pos pos))

/-! ## Laws -/

/-- The tokens at the edges of a span in the text make it wider, in the text. -/
theorem bounds_eq_ok {t : Text} {start stop : Nat} (h : start ≤ stop) (hl : stop ≤ t.length)
    (ht : t.length ≤ Span.limit) :
    ∃ s, bounds t start stop = .ok s ∧ s.start ≤ start ∧ stop ≤ s.stop ∧ s.stop ≤ t.length := by
  have h₁ := t.add_runAfter_le isWord hl
  exact ⟨_, Span.ofBounds_eq_ok (by omega) (by omega), Nat.sub_le _ _, Nat.le_add_right _ _, h₁⟩

end VoiceEdit.Token
