import VoiceEdit.Proofs.Word.Bounds
import VoiceEdit.Proofs.Word.Reading

/-!
# What a search chooses from

A search collects the occurrences of its phrase, one at most for each place in the text,
keeps those its method allows and chooses among them by where they lie.

Results:

* `solid_of_phraseOf?`, `match?_pos`: a query has no empty spelling, so that nothing it
  finds is empty.
* `mem_occurrencesFrom`: every place where the phrase matches is an occurrence.
* `of_mem_candidates`, `exists_candidate`: which occurrences are candidates.
* `choose?_allows`, `isSome_choose?`: what is chosen, and when something is.
-/
namespace VoiceEdit

namespace Phrase

variable {p : Phrase} {s text : List Char}

theorem Reads.ne_nil {words : List (List Text)} (h : Reads words s)
    (hne : ∀ spellings ∈ words, ∀ w ∈ spellings, w ≠ []) : s ≠ [] := by
  have spelt {spellings : List Text} {s : List Char} (hne : ∀ w ∈ spellings, w ≠ [])
      (h : Spells spellings s) : s ≠ [] := by
    obtain ⟨w, hw, hs⟩ := h
    rintro rfl
    exact hne w hw (List.map_eq_nil_iff.1 hs.symm)
  cases h with
  | last hs => exact spelt (hne _ List.mem_cons_self) hs
  | cons hs hgap hrest =>
    have hfirst := spelt (hne _ List.mem_cons_self) hs
    simp [hfirst]

/-- The words of a phrase are there, and none of them may be left out. -/
def Solid (p : Phrase) : Prop := p.words ≠ [] ∧ ∀ spellings ∈ p.words, ∀ w ∈ spellings, w ≠ []

theorem match?_pos {n : Nat} (hp : p.Solid) (h : p.match? text = some n) : 0 < n := by
  obtain ⟨rest, hmatch, rfl⟩ := Option.map_eq_some_iff.1 h
  obtain ⟨s, rfl, hs⟩ := reads_of_stripWords? hp.1 hmatch
  have hlen := List.length_pos_iff.2 (hs.ne_nil hp.2)
  rw [List.length_append]
  omega

theorem solid_literal {q : Text} (hq : q ≠ []) : (literal q).Solid := by
  refine ⟨List.cons_ne_nil _ _, fun spellings hs w hw => ?_⟩
  rw [literal, List.mem_singleton] at hs
  subst hs
  rw [List.mem_singleton] at hw
  subst hw
  exact hq

theorem solid_of_ofWords? {words : List Text} {spellings : Text → List Text}
    (h : ofWords? words spellings = some p) : p.Solid := by
  unfold ofWords? at h
  split at h
  · cases h
  · rename_i ws hne
    cases h
    refine ⟨fun hnil => hne (List.map_eq_nil_iff.1 hnil), fun kept hkept w hw => ?_⟩
    obtain ⟨word, -, rfl⟩ := List.mem_map.1 hkept
    exact (mem_spellingsOf.1 (keptOf_subset hw)).2

end Phrase

namespace Search

variable {t : Text} {method : SearchMethod} {query : Text} {lookup : SpellingLookup}
  {p : Phrase} {found : List (Nat × Nat)} {cs : List Span} {c around : Span}
  {proximity : Proximity}

theorem solid_of_phraseOf? (h : phraseOf? method query lookup = some p) : p.Solid := by
  unfold phraseOf? at h
  by_cases hempty : query.trim.isEmpty = true
  · rw [if_pos hempty] at h
    cases h
  · rw [if_neg hempty] at h
    have hne : query.trim ≠ [] := fun hnil => hempty (List.isEmpty_iff.2 hnil)
    cases method with
    | substring => cases h; exact Phrase.solid_literal hne
    | exactWord => cases h; exact Phrase.solid_literal hne
    | phrase => exact Phrase.solid_of_ofWords? h

/-! ## Occurrences and candidates -/

/-- Every place where the phrase matches is an occurrence. -/
theorem mem_occurrencesFrom (pos : Nat) {i n : Nat} (hi : i < t.length)
    (h : p.match? (t.drop i) = some n) : (pos + i, n) ∈ p.occurrencesFrom pos t := by
  induction t generalizing pos i with
  | nil => exact absurd hi (Nat.not_lt_zero i)
  | cons c rest ih =>
    cases i with
    | zero =>
      rw [List.drop_zero] at h
      rw [Phrase.occurrencesFrom, h]
      exact List.mem_cons_self
    | succ i =>
      have hrest := ih (pos + 1) (Nat.lt_of_succ_lt_succ hi) h
      rw [Nat.add_right_comm, Nat.add_assoc] at hrest
      rw [Phrase.occurrencesFrom]
      split
      · exact List.mem_cons_of_mem _ hrest
      · exact hrest

/-- What is kept is an occurrence that the method allows. -/
theorem of_mem_filterCandidates (h : filterCandidates t method found = .ok cs) (hc : c ∈ cs) :
    ∃ o ∈ found, Span.ofBounds o.1 (o.1 + o.2) = .ok c ∧ accepts t method c = .ok true := by
  induction found generalizing cs with
  | nil =>
    cases h
    cases hc
  | cons o rest ih =>
    obtain ⟨s, hs, h⟩ := bind_eq_ok.1 h
    obtain ⟨ok, hok, h⟩ := bind_eq_ok.1 h
    obtain ⟨more, hmore, h⟩ := bind_eq_ok.1 h
    cases h
    have later (hc : c ∈ more) :
        ∃ o' ∈ o :: rest, Span.ofBounds o'.1 (o'.1 + o'.2) = .ok c ∧ accepts t method c = .ok true := by
      obtain ⟨o', ho', hkept⟩ := ih hmore hc
      exact ⟨o', List.mem_cons_of_mem _ ho', hkept⟩
    cases ok with
    | false => exact later hc
    | true =>
      rcases List.mem_cons.1 hc with rfl | hc
      · exact ⟨o, List.mem_cons_self, hs, hok⟩
      · exact later hc

/-- An occurrence that the method allows is kept. -/
theorem exists_of_filterCandidates (h : filterCandidates t method found = .ok cs) {o : Nat × Nat}
    (ho : o ∈ found) : ∃ c ok, Span.ofBounds o.1 (o.1 + o.2) = .ok c ∧
      accepts t method c = .ok ok ∧ (ok = true → c ∈ cs) := by
  induction found generalizing cs with
  | nil => cases ho
  | cons first rest ih =>
    obtain ⟨s, hs, h⟩ := bind_eq_ok.1 h
    obtain ⟨ok, hok, h⟩ := bind_eq_ok.1 h
    obtain ⟨more, hmore, h⟩ := bind_eq_ok.1 h
    cases h
    rcases List.mem_cons.1 ho with rfl | ho
    · refine ⟨s, ok, hs, hok, fun htrue => ?_⟩
      rw [if_pos htrue]
      exact List.mem_cons_self
    · obtain ⟨c, ok', hc, hok', hmem⟩ := ih hmore ho
      refine ⟨c, ok', hc, hok', fun htrue => ?_⟩
      split
      · exact List.mem_cons_of_mem _ (hmem htrue)
      · exact hmem htrue

/-- A candidate is a place where the phrase matches; it is not empty. -/
theorem of_mem_candidates (hp : p.Solid) (h : candidates t method p = .ok cs) (hc : c ∈ cs) :
    c.start < c.stop ∧ p.match? (t.after c.start) = some (c.stop - c.start) ∧
      accepts t method c = .ok true := by
  obtain ⟨o, ho, hbounds, haccepts⟩ := of_mem_filterCandidates h hc
  obtain ⟨hstart, hstop, -⟩ := Span.ofBounds_eq_ok_iff.1 hbounds
  obtain ⟨-, -, hmatch⟩ := occurrencesFrom_bounds ho
  have hpos := Phrase.match?_pos hp hmatch
  rw [Nat.sub_zero, ← hstart] at hmatch
  refine ⟨by omega, ?_, haccepts⟩
  rw [show c.stop - c.start = o.2 by omega]
  exact hmatch

/-- A place where the phrase matches is a candidate if the method allows it. -/
theorem exists_candidate (h : candidates t method p = .ok cs) {i n : Nat} (hi : i < t.length)
    (hmatch : p.match? (t.after i) = some n) : ∃ c ok, c.start = i ∧ c.stop = i + n ∧
      accepts t method c = .ok ok ∧ (ok = true → c ∈ cs) := by
  have ho := mem_occurrencesFrom 0 hi hmatch
  obtain ⟨c, ok, hc, hok, hmem⟩ := exists_of_filterCandidates h ho
  obtain ⟨hstart, hstop, -⟩ := Span.ofBounds_eq_ok_iff.1 hc
  simp only [Nat.zero_add] at hstart hstop
  exact ⟨c, ok, hstart, hstop, hok, hmem⟩

end Search

/-! ## The choice -/

/-- Where something from `start` to `stop` has to lie to be asked for. -/
def Proximity.Allows (around : Span) (start stop : Nat) : Proximity → Prop
  | .closest => True
  | .next => around.stop ≤ start
  | .previous => stop ≤ around.start

namespace Search

variable {cs : List Span} {c around : Span} {proximity : Proximity}

theorem choose?_allows (h : choose? cs around proximity = some c) :
    proximity.Allows around c.start c.stop := by
  cases proximity with
  | closest => trivial
  | next => simpa [Proximity.Allows] using List.find?_some (h : cs.find? _ = some c)
  | previous => simpa [Proximity.Allows] using List.find?_some (h : cs.reverse.find? _ = some c)

theorem isSome_choose? (hc : c ∈ cs) (h : proximity.Allows around c.start c.stop) :
    (choose? cs around proximity).isSome = true := by
  cases proximity with
  | closest =>
    cases cs with
    | nil => cases hc
    | cons first rest => rfl
  | next => exact List.find?_isSome.2 ⟨c, hc, decide_eq_true h⟩
  | previous => exact List.find?_isSome.2 ⟨c, List.mem_reverse.2 hc, decide_eq_true h⟩

end Search

end VoiceEdit
