import VoiceEdit.Proofs.Modifier.PhraseSearch
import VoiceEdit.Proofs.Modifier.Within
import VoiceEdit.Proofs.Word.Fragments
import VoiceEdit.Proofs.Word.Progress

/-!
# What is found as a phrase

Whatever a search for a phrase finds reads as the query: it spells the words of the query, or
words that sound like them, in their order and with nothing but separators between them. No
word goes on across either end of it, so that the tokens at its ends add nothing, and it lies
where it was asked for.

Results:

* `Search.phraseFound_of_find`: what one search finds.
* `apply_phrase_stands`: what any number of searches, each from the one before, find.
-/
namespace VoiceEdit

variable {t query : Text} {target found : Target}

namespace Search

variable {lookup : SpellingLookup} {p : Phrase} {proximity : Proximity} {around : Span}

/-- `s` stands in the text as the query, where it was asked for, and is widened to no more. -/
structure PhraseFound (t query : Text) (lookup : SpellingLookup) (proximity : Proximity)
    (around s : Span) : Prop where
  stands : StandsAt t query lookup s.start s.stop
  asked : proximity.Allows around s.start s.stop
  bounds_eq : Token.bounds t s.start s.stop = .ok s

/-- What lies where it is asked for, from a place that lies where it was asked for. -/
theorem allows_trans {a b : Span} {start stop : Nat} (h : proximity.Allows a b.start b.stop)
    (h' : proximity.Allows b start stop) : proximity.Allows a start stop := by
  have hle := b.start_le_stop
  cases proximity with
  | closest => trivial
  | next => exact Nat.le_trans h (Nat.le_trans hle h')
  | previous => exact Nat.le_trans h' (Nat.le_trans hle h)

/-- What a search for a phrase finds stands in the text as the query, where it was asked for. -/
theorem phraseFound_of_find (h : find t .phrase proximity query lookup around = .ok (some found)) :
    PhraseFound t query lookup proximity around found.span := by
  obtain ⟨p, cs, c, hp, hcs, hc, h⟩ := exists_choice_of_find h
  obtain ⟨hlt, hmatch, haccepts⟩ := of_mem_candidates (solid_of_phraseOf? hp) hcs (mem_of_choose? hc)
  obtain ⟨hprev, hnext⟩ := (accepts_iff hlt haccepts).1 rfl
  obtain ⟨hwords, rfl⟩ := exists_phraseOf? hp
  have hstart : c.start ≤ t.length := by
    obtain ⟨rest, -, hlen⟩ := Option.map_eq_some_iff.1 hmatch
    rw [t.length_after] at hlen
    omega
  have hreads := readsAt_of_match? hwords hstart hmatch
  rw [Nat.add_sub_cancel' (Nat.le_of_lt hlt)] at hreads
  obtain ⟨token, htoken, h⟩ := bind_eq_ok.1 h
  obtain ⟨f, hf, h⟩ := bind_eq_ok.1 h
  cases h
  obtain ⟨hstart', hstop'⟩ := (Token.widens_bounds hstart htoken).eq_self hprev hnext
  rw [(Target.withRemoval?_eq_ok_iff.1 hf).1]
  rw [← hstart', ← hstop'] at hreads htoken
  rw [← hstart'] at hprev
  rw [← hstop'] at hnext
  have hasked := choose?_allows hc
  rw [← hstart', ← hstop'] at hasked
  exact ⟨⟨hreads, hprev, hnext⟩, hasked, htoken⟩

end Search

/-! ## The modifiers that search for a phrase -/

namespace Modifier

variable {m : Modifier} {env : Setting} {proximity : Proximity} {n : Nat}

theorem step_phraseFound (hkind : m.kind = .search .phrase proximity)
    (hquery : m.query = some query) (h : m.step env t target = .ok found) :
    Search.PhraseFound t query env.lookup proximity target.span found.span := by
  have hmust : m.kind.mustFind = true := by
    rw [hkind]
    rfl
  rcases step_eq_ok_iff.1 h with hfind | ⟨-, hnot, -⟩
  · unfold find at hfind
    rw [hkind, hquery] at hfind
    exact Search.phraseFound_of_find hfind
  · rw [hmust] at hnot
    cases hnot

/-- Each search begins where the one before ended, so that the last finds something that lies
where the first was asked to look. -/
theorem steps_phraseFound (hkind : m.kind = .search .phrase proximity)
    (hquery : m.query = some query) (h : m.steps env t (n + 1) target = .ok found) :
    Search.PhraseFound t query env.lookup proximity target.span found.span := by
  induction n generalizing target with
  | zero =>
    obtain ⟨next, hstep, h⟩ := bind_eq_ok.1 h
    obtain ⟨_, -, h⟩ := bind_eq_ok.1 h
    cases h
    exact step_phraseFound hkind hquery hstep
  | succ n ih =>
    rw [steps_succ] at h
    obtain ⟨next, hstep, h⟩ := bind_eq_ok.1 h
    obtain ⟨_, -, h⟩ := bind_eq_ok.1 h
    have hfound := ih h
    have hasked := (step_phraseFound hkind hquery hstep).asked
    exact ⟨hfound.stands, Search.allows_trans hasked hfound.asked, hfound.bounds_eq⟩

/-- **What is found is the phrase.** Whatever the text, the query and the words that sound
alike: what the modifiers that search for a phrase answer reads as the query, no word goes on
across either end of it, and it lies where it is asked for. The tokens at its edges are itself. -/
theorem apply_phrase_stands (hkind : m.kind = .search .phrase proximity)
    (hquery : m.query = some query) (hne : t ≠ []) (h : m.apply env t target = .ok found) :
    Search.StandsAt t query env.lookup found.span.start found.span.stop ∧
      proximity.Allows target.span found.span.start found.span.stop ∧
      Token.bounds t found.span.start found.span.stop = .ok found.span := by
  have hrep := repetitions_ne_zero h
  have hsteps := ((apply_eq_ok_iff hrep).1 h).2
  rw [if_neg hne] at hsteps
  obtain ⟨n, hn⟩ := Nat.exists_eq_succ_of_ne_zero hrep
  rw [hn] at hsteps
  have hfound := steps_phraseFound hkind hquery hsteps
  exact ⟨hfound.stands, hfound.asked, hfound.bounds_eq⟩

/-- "two dogs" is found as "Too, dogs". -/
theorem apply_phrase_stands_homophone :
    let query : Text := ['t', 'w', 'o', ' ', 'd', 'o', 'g', 's']
    let m : Modifier := { kind := .search .phrase .previous, query := some query }
    let env : Setting :=
      ⟨Settings.default, (Homophones.ofGroups [[['t', 'w', 'o'], ['t', 'o', 'o']]]).lookup⟩
    let t : Text := ['T', 'o', 'o', ',', ' ', 'd', 'o', 'g', 's', '.']
    let target : Target := .ofSpan (.point 10)
    m.kind = .search .phrase .previous ∧ m.query = some query ∧ t ≠ [] ∧
      ∃ found, m.apply env t target = .ok found ∧ found.span.start = 0 ∧ found.span.stop = 9 ∧
        Search.StandsAt t query env.lookup 0 9 := by
  intro query m env t target
  have hkind : m.kind = .search .phrase .previous := rfl
  have hquery : m.query = some query := rfl
  have hne : t ≠ [] := List.cons_ne_nil _ _
  obtain ⟨found, hfind, hstart, hstop, hwithin⟩ : ∃ found, m.find env t target.span = .ok (some found) ∧
      found.span.start = 0 ∧ found.span.stop = 9 ∧ found.Within t :=
    ⟨_, (Search.find_eq t .phrase .previous query env.lookup target.span).trans rfl, rfl, rfl,
      Nat.le_of_ble_eq_true rfl⟩
  have hrep : m.repetitions = 1 := rfl
  have ht : target.Within t := Nat.le_refl 10
  have happly : m.apply env t target = .ok found :=
    apply_of_step_eq_ok hrep hne ht (step_eq_ok_iff.2 (.inl hfind)) hwithin
  have hstands := (apply_phrase_stands hkind hquery hne happly).1
  rw [hstart, hstop] at hstands
  exact ⟨hkind, hquery, hne, found, happly, hstart, hstop, hstands⟩

end Modifier

end VoiceEdit
