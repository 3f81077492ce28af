import VoiceEdit.Proofs.Word.Candidates

/-!
# Which occurrence is taken

The candidates of a search stand in the order of the text. So the first that lies where it
is asked for is the next one, the last is the previous one, and of those that lie nearest
the first is the leftmost.

Results:

* `pairwise_candidates`: candidates stand in the order of the text.
* `rank_eq`: how far a candidate lies, and on which side.
* `choose?_prefers`: what is chosen is preferred to every candidate that is asked for.
-/
namespace VoiceEdit

/-! ## Preferences -/

/-- How many characters lie between the span and what stands from `start` to `stop`. -/
def Span.gap (s : Span) (start stop : Nat) : Nat :=
  if s.stop ≤ start then start - s.stop
  else if stop ≤ s.start then s.start - stop
  else 0

/-- Of two occurrences of `n` characters that are both asked for, the one at `i` is taken
rather than the one at `j`: the next is the leftmost, the previous the rightmost, and the
closest the one with the smaller gap, or where the gaps are the same the one that does not
lie before `around`, or else the leftmost. -/
def Proximity.Prefers (around : Span) (n i j : Nat) : Proximity → Prop
  | .next => i ≤ j
  | .previous => j ≤ i
  | .closest =>
    around.gap i (i + n) < around.gap j (j + n) ∨
      around.gap i (i + n) = around.gap j (j + n) ∧
        (¬i + n ≤ around.start ∧ j + n ≤ around.start ∨
          (i + n ≤ around.start ↔ j + n ≤ around.start) ∧ i ≤ j)

/-- No two occurrences are preferred to each other. -/
theorem Proximity.Prefers.antisymm {proximity : Proximity} {around : Span} {n i j : Nat}
    (h : proximity.Prefers around n i j) (h' : proximity.Prefers around n j i) : i = j := by
  cases proximity <;> simp only [Proximity.Prefers] at h h' <;> omega

namespace Search

variable {t : Text} {method : SearchMethod} {p : Phrase} {found : List (Nat × Nat)}
  {cs : List Span} {c c' around : Span} {proximity : Proximity} {n : Nat}

/-- Twice the gap, and one more before `around`: equal gaps are told apart by the side. -/
theorem rank_eq (hc : c.start < c.stop) : rank around c =
    2 * around.gap c.start c.stop + if c.stop ≤ around.start then 1 else 0 := by
  have hle := around.start_le_stop
  unfold rank Span.gap
  by_cases hbehind : around.stop ≤ c.start
  · rw [if_pos hbehind, if_pos hbehind, if_neg (show ¬c.stop ≤ around.start by omega), Nat.add_zero]
  · rw [if_neg hbehind, if_neg hbehind]
    by_cases hbefore : c.stop ≤ around.start
    · rw [if_pos hbefore, if_pos hbefore, if_pos hbefore]
    · rw [if_neg hbefore, if_neg hbefore, if_neg hbefore]

/-! ## The order of the candidates -/

theorem pairwise_occurrencesFrom (p : Phrase) (pos : Nat) (cs : List Char) :
    (p.occurrencesFrom pos cs).Pairwise (·.1 < ·.1) := by
  induction cs generalizing pos with
  | nil => exact .nil
  | cons c rest ih =>
    rw [Phrase.occurrencesFrom]
    split
    · exact .cons (fun o ho => Nat.lt_of_succ_le (occurrencesFrom_bounds ho).1) (ih (pos + 1))
    · exact ih (pos + 1)

theorem pairwise_filterCandidates (hfound : found.Pairwise (·.1 < ·.1))
    (h : filterCandidates t method found = .ok cs) : cs.Pairwise (·.start < ·.start) := by
  induction found generalizing cs with
  | nil =>
    cases h
    exact .nil
  | cons o rest ih =>
    obtain ⟨s, hs, h⟩ := bind_eq_ok.1 h
    obtain ⟨ok, -, h⟩ := bind_eq_ok.1 h
    obtain ⟨more, hmore, h⟩ := bind_eq_ok.1 h
    cases h
    obtain ⟨hfirst, hrest⟩ := List.pairwise_cons.1 hfound
    have hlater := ih hrest hmore
    cases ok with
    | false => exact hlater
    | true =>
      refine .cons (fun c hc => ?_) hlater
      obtain ⟨o', ho', hc', -⟩ := of_mem_filterCandidates hmore hc
      have := hfirst o' ho'
      rw [(Span.ofBounds_eq_ok_iff.1 hs).1, (Span.ofBounds_eq_ok_iff.1 hc').1]
      exact this

/-- Candidates stand in the order of the text. -/
theorem pairwise_candidates (h : candidates t method p = .ok cs) :
    cs.Pairwise (·.start < ·.start) :=
  pairwise_filterCandidates (pairwise_occurrencesFrom p 0 t) h

/-! ## The choice among them -/

/-- Of the candidates that lie nearest the first is kept: no other is nearer, and those that
are as near start behind it. -/
theorem nearest_le {best : Span} {rest : List Span}
    (hs : (best :: rest).Pairwise (·.start < ·.start))
    (hc : rest.foldl (fun best c => if rank around c < rank around best then c else best) best = c)
    (hc' : c' ∈ best :: rest) :
    rank around c < rank around c' ∨ rank around c = rank around c' ∧ c.start ≤ c'.start := by
  induction rest generalizing best c' with
  | nil =>
    rw [List.mem_singleton.1 hc', ← hc]
    exact .inr ⟨rfl, Nat.le_refl _⟩
  | cons next rest ih =>
    obtain ⟨hfirst, htail⟩ := List.pairwise_cons.1 hs
    rw [List.foldl_cons] at hc
    by_cases hnear : rank around next < rank around best
    · rw [if_pos hnear] at hc
      rcases List.mem_cons.1 hc' with rfl | hc'
      · have := ih htail hc List.mem_cons_self
        omega
      · exact ih htail hc hc'
    · rw [if_neg hnear] at hc
      have hkept : (best :: rest).Pairwise (·.start < ·.start) :=
        hs.sublist ((List.sublist_cons_self next rest).cons_cons best)
      rcases List.mem_cons.1 hc' with rfl | hc'
      · exact ih hkept hc List.mem_cons_self
      · rcases List.mem_cons.1 hc' with rfl | hc'
        · have hbest := ih hkept hc List.mem_cons_self
          have hbehind := hfirst c' List.mem_cons_self
          omega
        · exact ih hkept hc (List.mem_cons_of_mem best hc')

/-- What is chosen is preferred to every candidate that is asked for. -/
theorem choose?_prefers (hs : cs.Pairwise (·.start < ·.start))
    (hlen : ∀ c ∈ cs, c.stop = c.start + n) (hn : 0 < n) (h : choose? cs around proximity = some c)
    (hc' : c' ∈ cs) (hallows : proximity.Allows around c'.start c'.stop) :
    proximity.Prefers around n c.start c'.start := by
  cases proximity with
  | next =>
    rcases eq_or_of_find? hs h hc' (decide_eq_true hallows) with rfl | hlt
    · exact Nat.le_refl _
    · exact Nat.le_of_lt hlt
  | previous =>
    have hreverse : cs.reverse.Pairwise (fun a b => b.start < a.start) := List.pairwise_reverse.2 hs
    rcases eq_or_of_find? hreverse h (List.mem_reverse.2 hc') (decide_eq_true hallows) with rfl | hlt
    · exact Nat.le_refl _
    · exact Nat.le_of_lt hlt
  | closest =>
    have hmem : c ∈ cs := mem_of_choose? h
    have hstop := hlen c hmem
    have hstop' := hlen c' hc'
    cases cs with
    | nil => cases hc'
    | cons first rest =>
      have hnear := nearest_le hs (Option.some.inj h) hc'
      rw [rank_eq (by omega), rank_eq (by omega), hstop, hstop'] at hnear
      unfold Proximity.Prefers
      by_cases hbefore : c.start + n ≤ around.start
      · by_cases hbefore' : c'.start + n ≤ around.start
        · rw [if_pos hbefore, if_pos hbefore'] at hnear
          omega
        · rw [if_pos hbefore, if_neg hbefore'] at hnear
          omega
      · by_cases hbefore' : c'.start + n ≤ around.start
        · rw [if_neg hbefore, if_pos hbefore'] at hnear
          omega
        · rw [if_neg hbefore, if_neg hbefore'] at hnear
          omega

end Search

end VoiceEdit
