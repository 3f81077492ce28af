import VoiceEdit.Proofs.Word.Pattern
import VoiceEdit.Proofs.Yields

/-!
# Tokens and occurrences lie in the text

Stepping from token to token and searching for a phrase never fail on a text within the
limit of spans, and whatever they find lies in it with what its deletion removes.

Results:

* `Token.removal?_cases`: what goes along with a token.
* `Token.yields_target`: a span in the text makes a target in the text.
* `Token.finds_next`, `Token.finds_previous`: so does a step to another token.
* `Search.finds_find`: so does an occurrence, whatever the method and the query.
-/
namespace VoiceEdit

variable {t : Text} {s : Span}

/-! ## Tokens -/

namespace Token

theorem yields_bounds {start stop : Nat} (ht : t.length ≤ Span.limit) (h : start ≤ stop)
    (hl : stop ≤ t.length) : Yields (bounds t start stop) (·.stop ≤ t.length) := by
  obtain ⟨b, hb, -, -, hstop⟩ := bounds_eq_ok h hl ht
  exact ⟨b, hb, hstop⟩

/-- What deleting a token removes with it: a comma and a space behind it, or the space before
it. -/
theorem removal?_cases {r : Span} (h : removal? t s = some r) :
    (r.start = s.start ∧ s.stop ≤ r.stop ∧
      ∀ i, s.stop ≤ i → i < r.stop → t[i]? = some ',' ∨ t[i]? = some ' ') ∨
    r.start = s.start - 1 ∧ r.stop = s.stop ∧ t.prevIs (· == ' ') s.start = true := by
  have behind {stop : Nat} (h : (Span.ofBounds s.start stop).toOption = some r) :
      r.start = s.start ∧ r.stop = stop := Span.bounds_of_toOption h
  rw [removal?] at h
  by_cases hcomma : t[s.stop]? = some ','
  · simp only [if_pos hcomma] at h
    by_cases hspace : t[s.stop + 1]? = some ' '
    · rw [if_pos hspace] at h
      obtain ⟨h₁, h₂⟩ := behind h
      refine .inl ⟨h₁, by omega, fun i hi hlt => ?_⟩
      by_cases hfirst : i = s.stop
      · exact .inl (hfirst ▸ hcomma)
      · rw [show i = s.stop + 1 by omega]
        exact .inr hspace
    · rw [if_neg hspace] at h
      obtain ⟨h₁, h₂⟩ := behind h
      refine .inl ⟨h₁, by omega, fun i hi hlt => ?_⟩
      rw [show i = s.stop by omega]
      exact .inl hcomma
  · simp only [if_neg hcomma] at h
    by_cases hspace : t[s.stop]? = some ' '
    · rw [if_pos hspace] at h
      obtain ⟨h₁, h₂⟩ := behind h
      refine .inl ⟨h₁, by omega, fun i hi hlt => ?_⟩
      rw [show i = s.stop by omega]
      exact .inr hspace
    · rw [if_neg hspace] at h
      split at h
      · rename_i hend
        obtain ⟨h₁, h₂⟩ := Span.bounds_of_toOption h
        exact .inr ⟨h₁, h₂, (Bool.and_eq_true_iff.1 hend).2⟩
      · cases h

/-- The removal of a token holds the token and ends in the text. -/
theorem removes_removal? (hs : s.stop ≤ t.length) : Removes t s (removal? t s) := by
  intro r h
  rcases removal?_cases h with ⟨hstart, hstop, hchars⟩ | ⟨hstart, hstop, -⟩
  · refine ⟨by omega, hstop, Nat.le_of_not_lt fun hlong => ?_⟩
    have hend : t[t.length]? = none := List.getElem?_eq_none (Nat.le_refl _)
    rcases hchars t.length hs hlong with hchar | hchar
    · rw [hend] at hchar
      cases hchar
    · rw [hend] at hchar
      cases hchar
  · omega

theorem yields_target (hs : s.stop ≤ t.length) : Yields (target t s) (·.Within t) :=
  yields_withRemoval? hs (removes_removal? hs)

/-- The tokens at the edges of a span in the text make a target in the text. -/
theorem finds_tokens {start stop : Nat} (ht : t.length ≤ Span.limit) (h : start ≤ stop)
    (hl : stop ≤ t.length) :
    Finds t (do return some (← target t (← bounds t start stop))) :=
  (yields_bounds ht h hl).bind fun _ hb => (yields_target hb).finds

theorem finds_next (ht : t.length ≤ Span.limit) (hs : s.stop ≤ t.length) : Finds t (next t s) := by
  unfold next
  extract_lets pos pos₁ pos₂
  have h₁ : pos₁ ≤ t.length := by
    by_cases hi : inside t pos = true
    · rw [show pos₁ = pos + t.runAfter isWord pos from if_pos hi]
      exact t.add_runAfter_le isWord hs
    · rw [show pos₁ = pos from if_neg hi]
      exact hs
  have h₂ : pos₂ ≤ t.length := t.add_runAfter_le _ h₁
  by_cases hend : t.length ≤ pos₂
  · rw [if_pos hend]
    exact finds_none
  · rw [if_neg hend]
    exact finds_tokens ht (Nat.le_refl _) h₂

theorem finds_previous (ht : t.length ≤ Span.limit) (hs : s.stop ≤ t.length) :
    Finds t (previous t s) := by
  have hle := s.start_le_stop
  unfold previous
  extract_lets pos pos₁ pos₂
  have h₁ : pos₁ ≤ pos := by
    by_cases hi : inside t pos = true
    · rw [show pos₁ = pos - t.runBefore isWord pos from if_pos hi]
      exact Nat.sub_le _ _
    · exact Nat.le_of_eq (if_neg hi)
  have h₂ : pos₂ ≤ pos₁ := Nat.sub_le _ _
  by_cases hstart : pos₂ = 0
  · rw [if_pos hstart]
    exact finds_none
  · rw [if_neg hstart]
    exact finds_tokens ht (Nat.le_refl _) (by omega)

end Token

/-! ## Searches -/

namespace Search

variable {method : SearchMethod} {c : Span} {cs : List Span}

theorem match?_le {phrase : Phrase} {text : List Char} {n : Nat} (h : phrase.match? text = some n) :
    n ≤ text.length := by
  obtain ⟨rest, -, rfl⟩ := Option.map_eq_some_iff.1 h
  exact Nat.sub_le _ _

/-- An occurrence lies in the text. -/
theorem mem_occurrences_le {phrase : Phrase} {o : Nat × Nat} (h : o ∈ phrase.occurrencesFrom 0 t) :
    o.1 + o.2 ≤ t.length := by
  obtain ⟨-, hlt, hmatch⟩ := occurrencesFrom_bounds h
  have hle := match?_le hmatch
  rw [List.length_drop] at hle
  omega

theorem yields_accepts (ht : t.length ≤ Span.limit) (hs : s.stop ≤ t.length) :
    Yields (accepts t method s) fun _ => True := by
  cases method with
  | substring => exact (Token.yields_bounds ht s.start_le_stop hs).bind fun _ _ => .pure trivial
  | exactWord => exact .pure trivial
  | phrase => exact .pure trivial

theorem yields_filterCandidates (method : SearchMethod) {found : List (Nat × Nat)} (ht : t.length ≤ Span.limit)
    (hfound : ∀ o ∈ found, o.1 + o.2 ≤ t.length) :
    Yields (filterCandidates t method found) fun cs => ∀ c ∈ cs, c.stop ≤ t.length := by
  induction found with
  | nil => exact .pure fun c hc => by cases hc
  | cons o rest ih =>
    obtain ⟨start, length⟩ := o
    have hend : start + length ≤ t.length := hfound (start, length) List.mem_cons_self
    have hrest := ih fun o ho => hfound o (List.mem_cons_of_mem _ ho)
    rw [filterCandidates]
    refine (yields_ofBounds (Nat.le_add_right _ _) (by omega)).bind fun s hs => ?_
    have hs' : s.stop ≤ t.length := by omega
    refine (yields_accepts ht hs').bind fun ok _ => hrest.bind fun more hmore => .pure ?_
    intro c hc
    by_cases hok : ok = true
    · rw [if_pos hok] at hc
      rcases List.mem_cons.1 hc with rfl | hc
      · exact hs'
      · exact hmore c hc
    · rw [if_neg hok] at hc
      exact hmore c hc

/-- Whichever lies nearest, the choice is among what was looked at. -/
theorem nearest_mem (around best : Span) (rest : List Span) :
    rest.foldl (fun best c => if rank around c < rank around best then c else best) best ∈
      best :: rest := by
  induction rest generalizing best with
  | nil => exact List.mem_cons_self
  | cons next rest ih =>
    rw [List.foldl_cons]
    by_cases hnear : rank around next < rank around best
    · rw [if_pos hnear]
      exact List.mem_cons_of_mem best (ih next)
    · rw [if_neg hnear]
      rcases List.mem_cons.1 (ih best) with heq | hmem
      · rw [heq]
        exact List.mem_cons_self
      · exact List.mem_cons_of_mem best (List.mem_cons_of_mem next hmem)

/-- What is chosen is one of the candidates. -/
theorem mem_of_choose? {around : Span} {proximity : Proximity}
    (h : choose? cs around proximity = some c) : c ∈ cs := by
  cases proximity with
  | closest =>
    cases cs with
    | nil => cases h
    | cons first rest =>
      cases h
      exact nearest_mem around first rest
  | next => exact List.mem_of_find?_eq_some h
  | previous => exact List.mem_reverse.1 (List.mem_of_find?_eq_some h)

theorem finds_find (ht : t.length ≤ Span.limit) (proximity : Proximity) (query : Text)
    (lookup : SpellingLookup) : Finds t (find t method proximity query lookup s) := by
  rw [find_eq]
  cases phraseOf? method query lookup with
  | none => exact finds_none
  | some phrase =>
    have hfound : ∀ o ∈ phrase.occurrencesFrom 0 t, o.1 + o.2 ≤ t.length :=
      fun _ ho => mem_occurrences_le ho
    refine (yields_filterCandidates method ht hfound).bind fun cs hcs => ?_
    cases hchoice : choose? cs s proximity with
    | none => exact finds_none
    | some c => exact Token.finds_tokens ht c.start_le_stop (hcs c (mem_of_choose? hchoice))

end Search

end VoiceEdit
