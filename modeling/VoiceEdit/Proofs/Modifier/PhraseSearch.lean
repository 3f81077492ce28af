import VoiceEdit.Proofs.Modifier.Answers
import VoiceEdit.Proofs.Word.Fragments
import VoiceEdit.Proofs.Word.Preference
import VoiceEdit.Proofs.Word.Progress

/-!
# Where a phrase is found

From one place a text may read as a query in more than one way: where "by" and "bye" sound
alike, "bye" reads as either from its first character. A search tries one reading of each
place, the first in its order of preference, and when a word goes on behind that one it
turns to the next place, not to the next reading. So something is found exactly if the reading
that is tried somewhere is accepted, and a phrase that stands in the text is found when no
reading from its place is refused.

Results:

* `match?_eq_some_iff`: what matches at a place is the reading that is tried there.
* `find_eq_none_iff`: nothing is found exactly if no reading that is tried is accepted.
* `find_ne_none`: a phrase is found if no reading from its place is refused.
* `find_ne_none_of_unambiguous`: so a query whose spellings are unambiguous is found
  wherever it stands.
* `apply_finds_phrase`: when the modifiers that search for a phrase report that there is nothing.
* `apply_misses_phrase`: a spelling that is refused hides the one that stands.
-/
namespace VoiceEdit

open Phrase (Preferred Reads SameInLowercase Unambiguous)

namespace Search

variable {t query : Text} {lookup : SpellingLookup} {start stop : Nat} {proximity : Proximity}
  {around : Span}

/-! ## What stands in a text -/

/-- For each word of a query the spellings it may have. -/
def queried (query : Text) (lookup : SpellingLookup) : List (List Text) :=
  query.trim.words.map (Phrase.spellingsOf lookup.spellings)

/-- From `start` to `stop` the text reads as the query. -/
structure ReadsAt (t query : Text) (lookup : SpellingLookup) (start stop : Nat) : Prop where
  start_le_stop : start ≤ stop
  stop_le_length : stop ≤ t.length
  reads : Reads (queried query lookup) ((t.after start).take (stop - start))

/-- From `start` to `stop` the query stands in the text: no word goes on across either
end of what reads as it. -/
structure StandsAt (t query : Text) (lookup : SpellingLookup) (start stop : Nat) : Prop
    extends ReadsAt t query lookup start stop where
  prev_not_word : t.prevIs isWord start = false
  next_not_word : t.nextIs isWord stop = false

/-- Spellings of one word that are the same in lowercase are the same up to case, as those
with a dotted capital `İ` are not. Only the first of them is searched for. -/
def CaseSafe (query : Text) (lookup : SpellingLookup) : Prop :=
  ∀ w ∈ query.trim.words, SameInLowercase (Phrase.spellingsOf lookup.spellings w)

theorem ReadsAt.words_ne_nil (h : ReadsAt t query lookup start stop) : query.trim.words ≠ [] := by
  intro hnil
  have hreads := h.reads
  rw [queried, hnil] at hreads
  cases hreads

theorem ReadsAt.start_lt_length (h : ReadsAt t query lookup start stop) : start < t.length := by
  have hne := h.reads.ne_nil fun spellings hs w hw => by
    obtain ⟨word, -, rfl⟩ := List.mem_map.1 hs
    exact (Phrase.mem_spellingsOf.1 hw).2
  have hlen := List.length_pos_iff.2 hne
  rw [List.length_take, t.length_after] at hlen
  omega

/-- Two readings from one place of what is unambiguous are the same. -/
theorem ReadsAt.unique {stop' : Nat} (hu : Unambiguous (queried query lookup))
    (h : ReadsAt t query lookup start stop) (h' : ReadsAt t query lookup start stop') :
    stop' = stop := by
  have hsame := h.reads.unique hu h'.reads
    ((List.take_append_drop _ (t.after start)).trans (List.take_append_drop _ _).symm)
  have hlen := congrArg List.length hsame
  rw [List.length_take, List.length_take, t.length_after] at hlen
  have := h.start_le_stop
  have := h.stop_le_length
  have := h'.start_le_stop
  have := h'.stop_le_length
  omega

/-! ## What is searched for -/

/-- A query of some words is searched for by the spellings that are kept of each. -/
theorem phraseOf?_phrase (h : query.trim.words ≠ []) : phraseOf? .phrase query lookup =
    some ⟨query.trim.words.map (Phrase.keptOf lookup.spellings)⟩ := by
  have hne : ¬query.trim.isEmpty = true := by
    intro hempty
    rw [List.isEmpty_iff.1 hempty] at h
    exact h rfl
  unfold phraseOf?
  rw [if_neg hne]
  exact Phrase.ofWords?_words h fun w hw => Text.mem_words hw

/-- A query without words is not searched for. -/
theorem exists_phraseOf? (h : phraseOf? .phrase query lookup = some p) :
    query.trim.words ≠ [] ∧ p = ⟨query.trim.words.map (Phrase.keptOf lookup.spellings)⟩ := by
  have hwords : query.trim.words ≠ [] := by
    intro hnil
    simp only [phraseOf?, hnil] at h
    split at h
    · cases h
    · cases h
  refine ⟨hwords, ?_⟩
  rw [phraseOf?_phrase hwords] at h
  exact (Option.some.inj h).symm

/-- Where the text reads as the query, the phrase that is searched for matches. -/
theorem ReadsAt.match? (hcase : CaseSafe query lookup) (h : ReadsAt t query lookup start stop) :
    ∃ n, Phrase.match? ⟨query.trim.words.map (Phrase.keptOf lookup.spellings)⟩ (t.after start) =
      some n := by
  have hkept : Reads (query.trim.words.map (Phrase.keptOf lookup.spellings)) _ :=
    h.reads.mono fun w hw s => Phrase.spells_kept (hcase w hw)
  obtain ⟨rest, hmatch⟩ :=
    Option.isSome_iff_exists.1 (Phrase.isSome_stripWords?_of_reads hkept ((t.after start).drop (stop - start)))
  rw [List.take_append_drop] at hmatch
  refine ⟨(t.after start).length - rest.length, ?_⟩
  unfold Phrase.match?
  rw [hmatch]
  rfl

/-- Where the phrase that is searched for matches, the text reads as the query. -/
theorem readsAt_of_match? {n : Nat} (hne : query.trim.words ≠ []) (hstart : start ≤ t.length)
    (h : Phrase.match? ⟨query.trim.words.map (Phrase.keptOf lookup.spellings)⟩ (t.after start) =
      some n) : ReadsAt t query lookup start (start + n) := by
  obtain ⟨rest, hmatch, rfl⟩ := Option.map_eq_some_iff.1 h
  obtain ⟨s, heq, hs⟩ := Phrase.reads_of_stripWords? (fun hnil => hne (List.map_eq_nil_iff.1 hnil)) hmatch
  have hlen : (t.after start).length - rest.length = s.length := by
    rw [heq, List.length_append]
    omega
  have hafter := t.length_after start
  rw [hlen]
  refine ⟨by omega, by omega, ?_⟩
  rw [Nat.add_sub_cancel_left, heq, List.take_left]
  refine hs.mono fun w _ s hspells => ?_
  obtain ⟨k, hk, hfold⟩ := hspells
  exact ⟨k, Phrase.keptOf_subset hk, hfold⟩

/-! ## When a phrase is found -/

/-- No reading from `start` is refused: none ends within a word or elsewhere than asked for. -/
def NoneRefused (t query : Text) (lookup : SpellingLookup) (proximity : Proximity) (around : Span)
    (start : Nat) : Prop :=
  ∀ stop, ReadsAt t query lookup start stop →
    t.nextIs isWord stop = false ∧ proximity.Allows around start stop

theorem noneRefused_of_unambiguous (hu : Unambiguous (queried query lookup))
    (h : StandsAt t query lookup start stop) (hallows : proximity.Allows around start stop) :
    NoneRefused t query lookup proximity around start := by
  intro stop' h'
  rw [h.unique hu h']
  exact ⟨h.next_not_word, hallows⟩

/-! ## What is tried -/

/-- The reading of the query that is tried at `start` ends at `stop`. It is the preferred one, by the
spellings that are searched for. -/
structure TriedAt (t query : Text) (lookup : SpellingLookup) (start stop : Nat) : Prop where
  start_le_stop : start ≤ stop
  stop_le_length : stop ≤ t.length
  preferred : Preferred (query.trim.words.map (Phrase.keptOf lookup.spellings)) (t.after start)
    ((t.after start).take (stop - start))

/-- What is tried from `start` to `stop` is accepted: no word goes on across either end of it, and it
lies where it is asked for. -/
structure Accepted (t : Text) (proximity : Proximity) (around : Span) (start stop : Nat) : Prop where
  prev_not_word : t.prevIs isWord start = false
  next_not_word : t.nextIs isWord stop = false
  asked : proximity.Allows around start stop

/-- What matches at a place is the reading that is tried there. -/
theorem match?_eq_some_iff {n : Nat} (hne : query.trim.words ≠ []) (hstart : start ≤ t.length) :
    Phrase.match? ⟨query.trim.words.map (Phrase.keptOf lookup.spellings)⟩ (t.after start) = some n ↔
      TriedAt t query lookup start (start + n) := by
  have hne : query.trim.words.map (Phrase.keptOf lookup.spellings) ≠ [] :=
    fun hnil => hne (List.map_eq_nil_iff.1 hnil)
  have hafter := t.length_after start
  rw [Phrase.match?, Option.map_eq_some_iff]
  constructor
  · rintro ⟨rest, hmatch, hn⟩
    obtain ⟨s, heq, hs⟩ := (Phrase.stripWords?_eq_some_iff hne).1 hmatch
    have hlen := congrArg List.length heq
    rw [List.length_append] at hlen
    refine ⟨Nat.le_add_right _ _, by omega, ?_⟩
    rwa [Nat.add_sub_cancel_left, show n = s.length by omega, heq, List.take_left, ← heq]
  · rintro ⟨-, hstop, hpreferred⟩
    rw [Nat.add_sub_cancel_left] at hpreferred
    have hsplit := (List.take_append_drop n (t.after start)).symm
    refine ⟨_, (Phrase.stripWords?_eq_some_iff hne).2 ⟨_, hsplit, hpreferred⟩, ?_⟩
    rw [List.length_drop]
    omega

/-- A reading that is tried and accepted is found, or another one is. -/
theorem find_ne_none_of_tried (h : TriedAt t query lookup start stop)
    (haccepted : Accepted t proximity around start stop) :
    find t .phrase proximity query lookup around ≠ .ok none := by
  have hne : query.trim.words ≠ [] := by
    intro hnil
    have hpreferred := h.preferred
    rw [hnil] at hpreferred
    cases hpreferred
  have hp : phraseOf? .phrase query lookup = some _ := phraseOf?_phrase hne
  have hmatch : Phrase.match? ⟨query.trim.words.map (Phrase.keptOf lookup.spellings)⟩ (t.after start) =
      some (stop - start) := by
    rw [match?_eq_some_iff hne (Nat.le_trans h.start_le_stop h.stop_le_length),
      Nat.add_sub_cancel' h.start_le_stop]
    exact h
  have hpos := Phrase.match?_pos (solid_of_phraseOf? hp) hmatch
  have hlt : start < t.length := Nat.lt_of_lt_of_le (by omega) h.stop_le_length
  intro hfind
  rw [find_eq, hp] at hfind
  obtain ⟨cs, hcs, hfind⟩ := bind_eq_ok.1 hfind
  obtain ⟨c, ok, hstart, hstop, hok, hmem⟩ := exists_candidate hcs hlt hmatch
  rw [Nat.add_sub_cancel' h.start_le_stop] at hstop
  have haccepts : ok = true := by
    rw [accepts_iff (by omega) hok, hstart, hstop]
    exact ⟨haccepted.prev_not_word, haccepted.next_not_word⟩
  have hchoice := isSome_choose? (hmem haccepts) (by rw [hstart, hstop]; exact haccepted.asked)
  obtain ⟨c', hc'⟩ := Option.isSome_iff_exists.1 hchoice
  rw [hc'] at hfind
  obtain ⟨token, -, hfind⟩ := bind_eq_ok.1 hfind
  obtain ⟨target, -, hfind⟩ := bind_eq_ok.1 hfind
  cases hfind

/-- What is found is a reading that was tried and accepted. -/
theorem exists_tried_of_find {found : Target}
    (h : find t .phrase proximity query lookup around = .ok (some found)) :
    ∃ start stop, TriedAt t query lookup start stop ∧ Accepted t proximity around start stop := by
  obtain ⟨p, cs, c, hp, hcs, hc, -⟩ := exists_choice_of_find h
  obtain ⟨hlt, hmatch, haccepts⟩ := of_mem_candidates (solid_of_phraseOf? hp) hcs (mem_of_choose? hc)
  obtain ⟨hwords, rfl⟩ := exists_phraseOf? hp
  have hstart : c.start ≤ t.length := by
    obtain ⟨rest, -, hlen⟩ := Option.map_eq_some_iff.1 hmatch
    rw [t.length_after] at hlen
    omega
  have htried := (match?_eq_some_iff hwords hstart).1 hmatch
  rw [Nat.add_sub_cancel' (Nat.le_of_lt hlt)] at htried
  obtain ⟨hprev, hnext⟩ := (accepts_iff hlt haccepts).1 rfl
  exact ⟨c.start, c.stop, htried, hprev, hnext, choose?_allows hc⟩

/-- Nothing is found exactly if no reading that is tried is accepted. -/
theorem find_eq_none_iff (hlen : t.length ≤ Span.limit) :
    find t .phrase proximity query lookup around = .ok none ↔
      ∀ start stop, TriedAt t query lookup start stop → ¬Accepted t proximity around start stop := by
  constructor
  · exact fun h start stop htried haccepted => find_ne_none_of_tried htried haccepted h
  · intro h
    have hfinds : Finds t (find t .phrase proximity query lookup around) :=
      finds_find hlen proximity query lookup
    obtain ⟨o, ho, -⟩ := hfinds
    cases o with
    | none => exact ho
    | some found =>
      obtain ⟨start, stop, htried, haccepted⟩ := exists_tried_of_find ho
      exact absurd haccepted (h start stop htried)

/-- A search for a phrase that stands in the text is not without result, if no reading from
its place is refused. -/
theorem find_ne_none (hcase : CaseSafe query lookup) (h : StandsAt t query lookup start stop)
    (hnone : NoneRefused t query lookup proximity around start) :
    find t .phrase proximity query lookup around ≠ .ok none := by
  obtain ⟨n, hmatch⟩ := h.toReadsAt.match? hcase
  have hstart := Nat.le_of_lt h.start_lt_length
  obtain ⟨hnext, hallows⟩ := hnone _ (readsAt_of_match? h.words_ne_nil hstart hmatch)
  exact find_ne_none_of_tried ((match?_eq_some_iff h.words_ne_nil hstart).1 hmatch)
    ⟨h.prev_not_word, hnext, hallows⟩

/-- An unambiguous query is found wherever it stands. -/
theorem find_ne_none_of_unambiguous (hcase : CaseSafe query lookup)
    (hu : Unambiguous (queried query lookup)) (h : StandsAt t query lookup start stop)
    (hallows : proximity.Allows around start stop) :
    find t .phrase proximity query lookup around ≠ .ok none :=
  find_ne_none hcase h (noneRefused_of_unambiguous hu h hallows)

end Search

/-! ## The modifiers that search for a phrase -/

namespace Modifier

variable {m : Modifier} {env : Setting} {t : Text} {target : Target}

/-- A modifier that is applied once reports that there is nothing only if it finds nothing. -/
theorem apply_once_ne_noMatch (hrep : m.repetitions = 1) (hfind : m.find env t target.span ≠ .ok none)
    (kind : Kind) : m.apply env t target ≠ .error (.noMatch kind) := by
  have hcheck (target : Target) : checkWithin target t.length ≠ .error (.noMatch kind) := by
    unfold checkWithin
    cases target.checkWithin t.length with
    | error e => exact nofun
    | ok _ => exact nofun
  have hstep : m.step env t target ≠ .error (.noMatch kind) := by
    unfold step
    cases hfound : m.find env t target.span with
    | error e => exact nofun
    | ok o =>
      cases o with
      | none => exact absurd hfound hfind
      | some found => exact nofun
  intro happly
  unfold apply at happly
  rw [hrep, if_neg Nat.one_ne_zero] at happly
  obtain herr | ⟨_, -, happly⟩ := bind_eq_error.1 happly
  · exact hcheck target herr
  by_cases hempty : t = []
  · rw [if_pos hempty] at happly
    cases happly
  rw [if_neg hempty, steps_succ] at happly
  obtain herr | ⟨found, -, happly⟩ := bind_eq_error.1 happly
  · exact hstep herr
  obtain herr | ⟨_, -, happly⟩ := bind_eq_error.1 happly
  · exact hcheck found herr
  · cases happly

/-- **Phrases are found.** Whatever the text, the query and the words that sound alike: if
the query stands somewhere in the text, where the modifier is asked to look, and no reading
of it from the same place is refused, then the modifier does not report that there is
nothing. In a text within the limit it reports that exactly if the reading that is tried is
refused at every place that has one. -/
theorem apply_finds_phrase {query : Text} {proximity : Proximity}
    (hkind : m.kind = .search .phrase proximity) (hquery : m.query = some query)
    (hrep : m.repetitions = 1) :
    (∀ start stop, Search.CaseSafe query env.lookup → Search.StandsAt t query env.lookup start stop →
      Search.NoneRefused t query env.lookup proximity target.span start →
      ∀ kind, m.apply env t target ≠ .error (.noMatch kind)) ∧
    (t ≠ [] → target.Within t → t.length ≤ Span.limit →
      (m.apply env t target = .error (.noMatch m.kind) ↔
        ∀ start stop, Search.TriedAt t query env.lookup start stop →
          ¬Search.Accepted t proximity target.span start stop)) := by
  have hfind : m.find env t target.span =
      Search.find t .phrase proximity query env.lookup target.span := by
    unfold find
    rw [hkind, hquery]
    rfl
  have hmust : m.kind.mustFind = true := by
    rw [hkind]
    rfl
  refine ⟨fun start stop hcase h hnone kind => apply_once_ne_noMatch hrep ?_ kind, fun hne ht hlen => ?_⟩
  · rw [hfind]
    exact Search.find_ne_none hcase h hnone
  · rw [← Search.find_eq_none_iff hlen, ← hfind]
    constructor
    · intro herror
      refine Classical.byContradiction fun hsome => ?_
      exact apply_once_ne_noMatch hrep hsome m.kind herror
    · exact noMatch_of_find_eq_none hrep hne hmust ht

/-- "two big" is found as "too-big". -/
theorem apply_finds_phrase_homophone :
    let query : Text := ['t', 'w', 'o', ' ', 'b', 'i', 'g']
    let m : Modifier := { kind := .search .phrase .next, query := some query }
    let env : Setting :=
      ⟨Settings.default, (Homophones.ofGroups [[['t', 'w', 'o'], ['t', 'o', 'o']]]).lookup⟩
    let t : Text := ['a', ' ', 't', 'o', 'o', '-', 'b', 'i', 'g']
    let target : Target := .ofSpan (.point 1)
    Search.CaseSafe query env.lookup ∧ Search.StandsAt t query env.lookup 2 9 ∧
      Search.NoneRefused t query env.lookup .next target.span 2 ∧
      m.apply env t target ≠ .error (.noMatch m.kind) ∧
      t ≠ [] ∧ target.Within t ∧ t.length ≤ Span.limit ∧
      (∃ start stop, Search.TriedAt t query env.lookup start stop ∧
        Search.Accepted t .next target.span start stop) := by
  intro query m env t target
  have hcase : Search.CaseSafe query env.lookup := by
    unfold Search.CaseSafe SameInLowercase
    decide +kernel
  have hu : Unambiguous (Search.queried query env.lookup) := by
    constructor
    · unfold Phrase.PrefixFree
      decide +kernel
    · unfold Phrase.StartsBare
      decide +kernel
  have hwords : Search.queried query env.lookup =
      [[['t', 'w', 'o'], ['t', 'o', 'o'], ['t', 'w', 'o']], [['b', 'i', 'g'], ['b', 'i', 'g']]] := by
    decide +kernel
  have hreads : Reads (Search.queried query env.lookup) (['t', 'o', 'o'] ++ ['-'] ++ ['b', 'i', 'g']) := by
    rw [hwords]
    have hgap : ∀ c ∈ ['-'], Phrase.isGap c = true := by simp [Phrase.isGap]
    exact .cons ⟨['t', 'o', 'o'], by simp, rfl⟩ hgap (.last ⟨['b', 'i', 'g'], by simp, rfl⟩)
  have hstands : Search.StandsAt t query env.lookup 2 9 :=
    ⟨⟨by decide, by decide, hreads⟩, by decide, by decide⟩
  have hbehind : target.span.stop ≤ 2 := by decide
  have hnone : Search.NoneRefused t query env.lookup .next target.span 2 :=
    Search.noneRefused_of_unambiguous hu hstands hbehind
  have hkind : m.kind = .search .phrase .next := rfl
  have hmatch : m.apply env t target ≠ .error (.noMatch m.kind) :=
    (apply_finds_phrase hkind rfl rfl).1 2 9 hcase hstands hnone m.kind
  have ht : target.Within t := Nat.le_of_ble_eq_true rfl
  have hlen : t.length ≤ Span.limit := by decide
  refine ⟨hcase, hstands, hnone, hmatch, List.cons_ne_nil _ _, ht, hlen, ?_⟩
  refine Classical.byContradiction fun hno => hmatch ?_
  refine ((apply_finds_phrase hkind rfl rfl).2 (List.cons_ne_nil _ _) ht hlen).2 ?_
  exact fun start stop htried haccepted => hno ⟨start, stop, htried, haccepted⟩

/-- "bye" does not find itself where it sounds like "by": that spelling is tried first, a
word goes on behind it, and no other reading of the place is tried. -/
theorem apply_misses_phrase :
    let bye : Text := ['b', 'y', 'e']
    let m : Modifier := { kind := .search .phrase .closest, query := some bye }
    let env : Setting :=
      ⟨Settings.default, (Homophones.ofGroups [[['b', 'y'], bye, ['b', 'u', 'y']]]).lookup⟩
    Search.StandsAt bye bye env.lookup 0 3 ∧
      m.apply env bye (.ofSpan (.point 0)) = .error (.noMatch m.kind) := by
  intro bye m env
  have hreads : Phrase.Reads (Search.queried bye env.lookup) ((bye.after 0).take (3 - 0)) :=
    .last ⟨bye, by decide +kernel, rfl⟩
  have hfind : m.find env bye (.point 0) = .ok none := by
    show Search.find bye .phrase .closest bye env.lookup (.point 0) = .ok none
    rw [Search.find_eq]
    rfl
  have hmiss : m.apply env bye (.ofSpan (.point 0)) = .error (.noMatch m.kind) :=
    noMatch_of_find_eq_none rfl (List.cons_ne_nil _ _) rfl (Nat.zero_le _) hfind
  exact ⟨⟨⟨by decide, by decide, hreads⟩, by decide, by decide⟩, hmiss⟩

end Modifier

end VoiceEdit
