import VoiceEdit.Word.Homophones
import VoiceEdit.Word.Pattern
import VoiceEdit.Word.Token

/-!
# Searching for words

A search looks the pattern of a query up everywhere in the text, keeps the occurrences
that its method allows, and picks one by where it lies. Occurrences may overlap: each place
in the text has one of its own, or none.

Results:

* `occurrencesFrom_bounds`: an occurrence is a place where the phrase matches.
-/
namespace VoiceEdit

/-- What counts as an occurrence. -/
inductive SearchMethod where
  /-- A part of one fragment of a token. -/
  | substring
  /-- Words as they are spelt. -/
  | exactWord
  /-- Words in sequence, in any spelling. -/
  | phrase
deriving DecidableEq, Repr

/-- Which occurrence is taken. -/
inductive Proximity where
  | closest
  | next
  | previous
deriving DecidableEq, Repr

namespace Search

/-- What a query asks for, by the given method. -/
def phraseOf? (method : SearchMethod) (query : Text) (lookup : SpellingLookup) : Option Phrase :=
  let query := query.trim
  if query.isEmpty then none
  else match method with
    | .substring | .exactWord => some (Phrase.literal query)
    | .phrase => Phrase.ofWords? query.words lookup.spellings

/-- The pattern of a query, as the matcher is given it. -/
def patternOf? (method : SearchMethod) (query : Text) (lookup : SpellingLookup) : Option Text :=
  (phraseOf? method query lookup).map Phrase.toRegex

/-- No word goes on across either end of the span. -/
def onWordBoundaries (t : Text) (s : Span) : Bool :=
  !t.prevIs isWord s.start && !t.nextIs isWord s.stop

/-- The method allows an occurrence at `s`. -/
def accepts (t : Text) (method : SearchMethod) (s : Span) : Except Span.Error Bool :=
  match method with
  | .substring => do
    let token ← Token.bounds t s.start s.stop
    return (t.fragments token).any (·.contains s)
  | .exactWord | .phrase => return onWordBoundaries t s

/-- The occurrences of `p` among `found` that the method allows, in order. -/
def filterCandidates (t : Text) (method : SearchMethod) :
    List (Nat × Nat) → Except Span.Error (List Span)
  | [] => return []
  | (start, length) :: rest => do
    let s ← Span.ofBounds start (start + length)
    let ok ← accepts t method s
    let more ← filterCandidates t method rest
    return if ok then s :: more else more

/-- Every occurrence that the method allows, in text order. -/
def candidates (t : Text) (method : SearchMethod) (p : Phrase) : Except Span.Error (List Span) :=
  filterCandidates t method (p.occurrencesFrom 0 t)

/-- How far a candidate lies from `around`: twice the gap, and one more when the
candidate lies before it, so that of two equally far the later one is nearer. -/
def rank (around c : Span) : Nat :=
  if around.stop ≤ c.start then 2 * (c.start - around.stop)
  else if c.stop ≤ around.start then 2 * (around.start - c.stop) + 1
  else 0

/-- The first of the candidates that lie nearest. -/
def closest? (around : Span) : List Span → Option Span
  | [] => none
  | c :: rest =>
    some (rest.foldl (fun best c => if rank around c < rank around best then c else best) c)

/-- The candidate that `proximity` asks for. -/
def choose? (candidates : List Span) (around : Span) : Proximity → Option Span
  | .closest => closest? around candidates
  | .next => candidates.find? fun c => decide (around.stop ≤ c.start)
  | .previous => candidates.reverse.find? fun c => decide (c.stop ≤ around.start)

/-- The occurrence asked for, widened to whole tokens. -/
def find (t : Text) (method : SearchMethod) (proximity : Proximity) (query : Text)
    (lookup : SpellingLookup) (s : Span) : Except Span.Error (Option Target) :=
  match patternOf? method query lookup with
  | none => return none
  | some pattern => do
    match choose? (← candidates t method (Phrase.ofRegex pattern)) s proximity with
    | none => return none
    | some c => return some (← Token.target t (← Token.bounds t c.start c.stop))

/-! ## Laws -/

/-- An occurrence is a place where the phrase matches. -/
theorem occurrencesFrom_bounds {p : Phrase} {pos : Nat} {t : List Char} {o : Nat × Nat}
    (h : o ∈ p.occurrencesFrom pos t) :
    pos ≤ o.1 ∧ o.1 < pos + t.length ∧ p.match? (t.drop (o.1 - pos)) = some o.2 := by
  induction t generalizing pos with
  | nil => simp [Phrase.occurrencesFrom] at h
  | cons c rest ih =>
    have later (h : o ∈ p.occurrencesFrom (pos + 1) rest) :
        pos ≤ o.1 ∧ o.1 < pos + (c :: rest).length ∧
          p.match? ((c :: rest).drop (o.1 - pos)) = some o.2 := by
      obtain ⟨h₁, h₂, h₃⟩ := ih h
      refine ⟨by omega, by simp; omega, ?_⟩
      rwa [show o.1 - pos = o.1 - (pos + 1) + 1 by omega, List.drop_succ_cons]
    simp only [Phrase.occurrencesFrom] at h
    split at h
    · rename_i n hn
      rcases List.mem_cons.1 h with rfl | h
      · simpa using hn
      · exact later h
    · exact later h

end Search

end VoiceEdit
