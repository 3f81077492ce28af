import VoiceEdit.Proofs.Text.Runs
import VoiceEdit.Proofs.Word.Candidates

/-!
# Steps to words go on

The token behind a span ends behind it and the token before a span starts before it,
strictly; and so does an occurrence that a search finds there, even when the whole tokens
at its edges are taken.

Results:

* `Token.exists_of_next`, `Token.exists_of_previous`, `Search.exists_choice_of_find`: what is
  found, and from where.
* `Token.next_stop`, `Token.previous_start`: a step to another token.
* `Search.find_next_stop`, `Search.find_previous_start`: a search behind or before a span.
-/
namespace VoiceEdit

variable {t : Text} {s : Span} {f : Target}

/-! ## Tokens -/

namespace Token

/-- What is selected at a place is the place with the tokens at its edges. -/
theorem target_bounds {start stop : Nat}
    (h : (do return some (← target t (← bounds t start stop))) = Except.ok (ε := Span.Error) (some f)) :
    f.span.start = start - t.runBefore isWord start ∧ f.span.stop = stop + t.runAfter isWord stop := by
  obtain ⟨token, htoken, h⟩ := bind_eq_ok.1 h
  obtain ⟨target, htarget, h⟩ := bind_eq_ok.1 h
  cases h
  obtain ⟨hstart, hstop, -⟩ := Span.ofBounds_eq_ok_iff.1 htoken
  rw [(Target.withRemoval?_eq_ok_iff.1 htarget).1]
  exact ⟨hstart, hstop⟩

/-- The next token is the one at the first word character behind the span, or behind the
token that goes on there. -/
theorem exists_of_next (h : next t s = .ok (some f)) : ∃ pos, s.stop ≤ pos ∧
    t.nextIs isWord pos = true ∧
    (do return some (← target t (← bounds t pos pos))) = Except.ok (ε := Span.Error) (some f) := by
  unfold next at h
  extract_lets pos pos₁ pos₂ at h
  have h₁ : s.stop ≤ pos₁ := by
    unfold pos₁
    split
    · exact Nat.le_add_right _ _
    · exact Nat.le_refl _
  have h₂ : pos₁ ≤ pos₂ := Nat.le_add_right _ _
  by_cases hend : t.length ≤ pos₂
  · rw [if_pos hend] at h
    cases h
  · rw [if_neg hend] at h
    -- The run of other characters has ended in the text, so a token begins there.
    have hother := t.not_nextIs_add_runAfter (!isWord ·) pos₁
    rw [Text.nextIs_not (by omega)] at hother
    exact ⟨pos₂, by omega, by simpa using hother, h⟩

/-- The previous token is the one at the last word character before the span, or before the
token that began there. -/
theorem exists_of_previous (hs : s.start ≤ t.length) (h : previous t s = .ok (some f)) :
    ∃ pos, pos ≤ s.start ∧ t.prevIs isWord pos = true ∧
      (do return some (← target t (← bounds t pos pos))) = Except.ok (ε := Span.Error) (some f) := by
  unfold previous at h
  extract_lets pos pos₁ pos₂ at h
  have h₁ : pos₁ ≤ s.start := by
    unfold pos₁
    split
    · exact Nat.sub_le _ _
    · exact Nat.le_refl _
  have h₂ : pos₂ ≤ pos₁ := Nat.sub_le _ _
  by_cases hfirst : pos₂ = 0
  · rw [if_pos hfirst] at h
    cases h
  · rw [if_neg hfirst] at h
    have hother := Text.not_prevIs_sub_runBefore (p := (!isWord ·)) (Nat.le_trans h₁ hs)
    rw [Text.prevIs_not (by omega) (by omega)] at hother
    exact ⟨pos₂, by omega, by simpa using hother, h⟩

/-- The token behind a span ends behind it. -/
theorem next_stop (h : next t s = .ok (some f)) : s.stop < f.span.stop := by
  obtain ⟨pos, hpos, hword, h⟩ := exists_of_next h
  have hrun := Text.runAfter_pos hword
  have := (target_bounds h).2
  omega

/-- The token before a span starts before it. -/
theorem previous_start (hs : s.start ≤ t.length) (h : previous t s = .ok (some f)) :
    f.span.start < s.start := by
  obtain ⟨pos, hpos, hword, h⟩ := exists_of_previous hs h
  have hfirst := (Text.prevIs_iff.1 hword).1
  have hrun := Text.runBefore_pos (by omega) hword
  have := (target_bounds h).1
  omega

end Token

/-! ## Searches -/

namespace Search

variable {method : SearchMethod} {proximity : Proximity} {query : Text} {lookup : SpellingLookup}

/-- What a search finds is its choice among the candidates, with the tokens at its edges. -/
theorem exists_choice_of_find (h : find t method proximity query lookup s = .ok (some f)) :
    ∃ p cs c, phraseOf? method query lookup = some p ∧ candidates t method p = .ok cs ∧
      choose? cs s proximity = some c ∧
      (do return some (← Token.target t (← Token.bounds t c.start c.stop))) =
        Except.ok (ε := Span.Error) (some f) := by
  rw [find_eq] at h
  cases hp : phraseOf? method query lookup with
  | none =>
    rw [hp] at h
    cases h
  | some p =>
    rw [hp] at h
    obtain ⟨cs, hcs, h⟩ := bind_eq_ok.1 h
    cases hc : choose? cs s proximity with
    | none =>
      rw [hc] at h
      cases h
    | some c =>
      rw [hc] at h
      exact ⟨p, cs, c, rfl, hcs, hc, h⟩

/-- What a search finds holds an occurrence, which is not empty and lies where it was asked for. -/
theorem exists_of_find (h : find t method proximity query lookup s = .ok (some f)) :
    ∃ c : Span, c.start < c.stop ∧ proximity.Allows s c.start c.stop ∧
      f.span.start ≤ c.start ∧ c.stop ≤ f.span.stop := by
  obtain ⟨p, cs, c, hp, hcs, hc, h⟩ := exists_choice_of_find h
  obtain ⟨hne, -, -⟩ := of_mem_candidates (solid_of_phraseOf? hp) hcs (mem_of_choose? hc)
  obtain ⟨hstart, hstop⟩ := Token.target_bounds h
  exact ⟨c, hne, choose?_allows hc, by omega, by omega⟩

/-- An occurrence behind a span ends behind it. -/
theorem find_next_stop (h : find t method .next query lookup s = .ok (some f)) :
    s.stop < f.span.stop := by
  obtain ⟨c, hne, hbehind, -, hstop⟩ := exists_of_find h
  have hbehind : s.stop ≤ c.start := hbehind
  omega

/-- An occurrence before a span starts before it. -/
theorem find_previous_start (h : find t method .previous query lookup s = .ok (some f)) :
    f.span.start < s.start := by
  obtain ⟨c, hne, hbefore, hstart, -⟩ := exists_of_find h
  have hbefore : c.stop ≤ s.start := hbefore
  omega

end Search

end VoiceEdit
