import VoiceEdit.Proofs.Modifier.Bounds
import VoiceEdit.Proofs.Word.Choice
import VoiceEdit.Proofs.Word.Fragments

/-!
# Where a word is found

A search for a part of a word, or for words as they are spelt, is exact. What it is to find
can be read off the text: the characters are those of the query, up to case, and they make
up a part of one fragment or no word goes on across them. Of all such places, overlapping
ones included, the search takes the one that is asked for, and it reports that there is none
only where there is none.

Results:

* `Phrase.match?_literal_iff`: where a literal matches.
* `Search.mem_candidates_iff`: the candidates are the occurrences.
* `Search.IsChoice.unique`: at most one of them is to be taken.
* `Search.find_exact`, `apply_search_exact`: that one is found, or there is none.
-/
namespace VoiceEdit

open Unicode (fold)

variable {t : Text} {around : Span} {proximity : Proximity} {method : SearchMethod} {i j : Nat}

/-! ## What is to be found -/

namespace Search

variable {q query : Text} {lookup : SpellingLookup} {cs : List Span} {c : Span}

/-- At `i` the text reads as `q`, up to case. -/
def SpelledAt (t q : Text) (i : Nat) : Prop := ((t.after i).take q.length).map fold = q.map fold

/-- At `i` the text reads as `q`, in a place that the method allows. -/
structure OccursAt (t : Text) (method : SearchMethod) (q : Text) (i : Nat) : Prop where
  spelled : SpelledAt t q i
  allowed : method.Allows t i (i + q.length)

instance (t q : Text) (i : Nat) : Decidable (SpelledAt t q i) :=
  inferInstanceAs (Decidable (_ = _))

instance (t : Text) (method : SearchMethod) (q : Text) (i : Nat) :
    Decidable (OccursAt t method q i) :=
  decidable_of_iff (SpelledAt t q i ∧ method.Allows t i (i + q.length))
    ⟨fun h => ⟨h.1, h.2⟩, fun h => ⟨h.spelled, h.allowed⟩⟩

/-- `q` occurs at `i`, where it is asked for, and wherever else it does that is preferred. -/
structure IsChoice (t : Text) (method : SearchMethod) (q : Text) (proximity : Proximity)
    (around : Span) (i : Nat) : Prop where
  occurs : OccursAt t method q i
  asked : proximity.Allows around i (i + q.length)
  preferred : ∀ j, OccursAt t method q j → proximity.Allows around j (j + q.length) →
    proximity.Prefers around q.length i j

/-- At most one occurrence is to be taken. -/
theorem IsChoice.unique (h : IsChoice t method q proximity around i)
    (h' : IsChoice t method q proximity around j) : i = j :=
  (h.preferred j h'.occurs h'.asked).antisymm (h'.preferred i h.occurs h.asked)

theorem SpelledAt.stop_le_length (hq : q ≠ []) (h : SpelledAt t q i) :
    i + q.length ≤ t.length := by
  have hpos := List.length_pos_iff.2 hq
  have hlen := congrArg List.length h
  rw [List.length_map, List.length_map, List.length_take, t.length_after] at hlen
  omega

end Search

/-! ## Literals -/

/-- A literal matches where the text begins with it, up to case. -/
theorem Phrase.match?_literal_iff {q : Text} {text : List Char} {n : Nat} :
    (literal q).match? text = some n ↔
      n = q.length ∧ (text.take q.length).map fold = q.map fold := by
  have hwords : stripWords? (literal q).words text = strip? q text := by
    rw [literal, stripWords?, List.findSome?_cons, List.findSome?_nil]
    cases strip? q text <;> rfl
  rw [match?, hwords]
  constructor
  · intro h
    obtain ⟨rest, hrest, rfl⟩ := Option.map_eq_some_iff.1 h
    obtain ⟨s, rfl, hs⟩ := eq_append_of_strip? hrest
    have hlen : s.length = q.length := by
      rw [← List.length_map fold, hs, List.length_map]
    rw [List.take_left' hlen]
    refine ⟨?_, hs⟩
    rw [List.length_append]
    omega
  · rintro ⟨rfl, hs⟩
    have hrest := strip?_append hs (text.drop q.length)
    rw [List.take_append_drop] at hrest
    rw [hrest, Option.map_some, List.length_drop]
    have hlen := congrArg List.length hs
    rw [List.length_map, List.length_map, List.length_take] at hlen
    congr 1
    omega

namespace Search

variable {q query : Text} {cs : List Span} {c : Span}

/-- A query that is not a phrase is searched for as it is spelt. -/
theorem phraseOf?_literal (hmethod : method ≠ .phrase) (hq : query.trim ≠ [])
    (lookup : SpellingLookup) :
    phraseOf? method query lookup = some (Phrase.literal query.trim) := by
  have hempty : ¬query.trim.isEmpty = true := fun h => hq (List.isEmpty_iff.1 h)
  unfold phraseOf?
  rw [if_neg hempty]
  cases method with
  | substring | exactWord => rfl
  | phrase => exact absurd rfl hmethod

/-- The candidates are the places where the query occurs, all of them. -/
theorem mem_candidates_iff (hq : q ≠ []) (h : candidates t method (Phrase.literal q) = .ok cs) :
    c ∈ cs ↔ c.stop = c.start + q.length ∧ OccursAt t method q c.start := by
  have hpos := List.length_pos_iff.2 hq
  have hsolid : (Phrase.literal q).Solid := Phrase.solid_literal hq
  constructor
  · intro hc
    obtain ⟨hlt, hmatch, haccepts⟩ := of_mem_candidates hsolid h hc
    obtain ⟨hlen, hreads⟩ := Phrase.match?_literal_iff.1 hmatch
    have hstop : c.stop = c.start + q.length := by omega
    exact ⟨hstop, hreads, hstop ▸ (accepts_iff hlt haccepts).1 rfl⟩
  · rintro ⟨hstop, hoccurs⟩
    have hend := hoccurs.spelled.stop_le_length hq
    obtain ⟨c', ok, hstart', hstop', hok, hmem⟩ := exists_candidate h (i := c.start) (by omega)
      (Phrase.match?_literal_iff.2 ⟨rfl, hoccurs.spelled⟩)
    have hsame : c' = c := Span.ext hstart' (by omega)
    subst hsame
    exact hmem ((accepts_iff (by omega) hok).2 (hstop ▸ hoccurs.allowed))

/-- Wherever the query occurs, there is a candidate. -/
theorem exists_mem_candidates (hq : q ≠ [])
    (h : candidates t method (Phrase.literal q) = .ok cs) (ho : OccursAt t method q i) :
    ∃ c ∈ cs, c.start = i ∧ c.stop = i + q.length := by
  have hpos := List.length_pos_iff.2 hq
  have hend := ho.spelled.stop_le_length hq
  obtain ⟨c, ok, hstart, hstop, -, -⟩ := exists_candidate h (i := i) (by omega)
    (Phrase.match?_literal_iff.2 ⟨rfl, ho.spelled⟩)
  exact ⟨c, (mem_candidates_iff hq h).2 ⟨by omega, hstart ▸ ho⟩, hstart, hstop⟩

/-- What is chosen among the candidates is the occurrence that is to be taken. -/
theorem isChoice_of_choose? (hq : q ≠ [])
    (h : candidates t method (Phrase.literal q) = .ok cs)
    (hc : choose? cs around proximity = some c) :
    c.stop = c.start + q.length ∧ IsChoice t method q proximity around c.start := by
  obtain ⟨hstop, hoccurs⟩ := (mem_candidates_iff hq h).1 (mem_of_choose? hc)
  refine ⟨hstop, hoccurs, hstop ▸ choose?_allows hc, fun j hj hasked => ?_⟩
  obtain ⟨c', hc', rfl, hstop'⟩ := exists_mem_candidates hq h hj
  exact choose?_prefers (pairwise_candidates h) (fun c hc => ((mem_candidates_iff hq h).1 hc).1)
    (List.length_pos_iff.2 hq) hc hc' (hstop' ▸ hasked)

/-- The text reads as `q` at a place from which the token at its end reaches beyond the limit
of spans. -/
def Overlong (t q : Text) : Prop :=
  ∃ i, SpelledAt t q i ∧
    Span.limit < i + q.length + t.runAfter isWord (i + q.length)

theorem Overlong.limit_lt_length (hq : q ≠ []) (h : Overlong t q) : Span.limit < t.length := by
  obtain ⟨i, hi, hlong⟩ := h
  have hend := t.add_runAfter_le isWord (hi.stop_le_length hq)
  omega

/-- Candidates are refused only for a place that reaches beyond the limit of spans. -/
theorem overlong_of_candidates {e : Span.Error}
    (h : candidates t method (Phrase.literal q) = .error e) : Overlong t q := by
  obtain ⟨o, ho, hlong⟩ := exists_of_filterCandidates_eq_error h
  obtain ⟨-, -, hmatch⟩ := occurrencesFrom_bounds ho
  obtain ⟨hlen, hspelled⟩ := Phrase.match?_literal_iff.1 hmatch
  rw [hlen] at hlong
  exact ⟨o.1, hspelled, hlong⟩

/-- What is chosen, with the tokens at its edges, is a target in the text. -/
theorem find_of_choose? (hmethod : method ≠ .phrase) (hq : query.trim ≠ [])
    (lookup : SpellingLookup)
    (hcs : candidates t method (Phrase.literal query.trim) = .ok cs)
    (hc : choose? cs around proximity = some c) :
    (∃ f, find t method proximity query lookup around = .ok (some f) ∧ f.Within t ∧
      Token.Widens t c.start c.stop f.span) ∨
    Overlong t query.trim ∧ ∃ e, find t method proximity query lookup around = .error e := by
  obtain ⟨hstop, hchoice⟩ := isChoice_of_choose? hq hcs hc
  have hend := hchoice.occurs.spelled.stop_le_length hq
  have hfind : find t method proximity query lookup around =
      (do return some (← Token.target t (← Token.bounds t c.start c.stop))) := by
    rw [find_eq, phraseOf?_literal hmethod hq]
    simp only [hcs, bind, Except.bind, hc]
  rw [hfind]
  cases htoken : Token.bounds t c.start c.stop with
  | error e =>
    have hlong := Token.limit_lt_of_bounds c.start_le_stop htoken
    rw [hstop] at hlong
    exact .inr ⟨⟨c.start, hchoice.occurs.spelled, hlong⟩, e, rfl⟩
  | ok token =>
    have htoken_le : token.stop ≤ t.length := by
      rw [(Span.ofBounds_eq_ok_iff.1 htoken).2.1]
      exact t.add_runAfter_le isWord (by omega)
    obtain ⟨f, hf, hwithin⟩ := Token.yields_target htoken_le
    refine .inl ⟨f, ?_, hwithin, ?_⟩
    · simp only [bind, Except.bind, hf]
      rfl
    · rw [(Target.withRemoval?_eq_ok_iff.1 hf).1]
      exact Token.widens_bounds (by omega) htoken

/-- A search finds the occurrence that is to be taken, with the tokens at its edges, or finds
nothing where none is asked for, or comes to a place that no span reaches. -/
theorem find_exact (t : Text) (around : Span) (proximity : Proximity) (lookup : SpellingLookup)
    (hmethod : method ≠ .phrase) (hq : query.trim ≠ []) :
    (∃ f i, find t method proximity query lookup around = .ok (some f) ∧ f.Within t ∧
      IsChoice t method query.trim proximity around i ∧
      Token.Widens t i (i + query.trim.length) f.span) ∨
    (find t method proximity query lookup around = .ok none ∧
      ∀ i, OccursAt t method query.trim i →
        ¬proximity.Allows around i (i + query.trim.length)) ∨
    Overlong t query.trim ∧ ∃ e, find t method proximity query lookup around = .error e := by
  cases hcs : candidates t method (Phrase.literal query.trim) with
  | error e =>
    refine .inr (.inr ⟨overlong_of_candidates hcs, e, ?_⟩)
    rw [find_eq, phraseOf?_literal hmethod hq]
    simp only [hcs, bind, Except.bind]
  | ok cs =>
    cases hc : choose? cs around proximity with
    | none =>
      refine .inr (.inl ⟨?_, fun i hi hasked => ?_⟩)
      · rw [find_eq, phraseOf?_literal hmethod hq]
        simp only [hcs, bind, Except.bind, hc]
        rfl
      · obtain ⟨c, hmem, rfl, hstop⟩ := exists_mem_candidates hq hcs hi
        have hsome := isSome_choose? hmem (hstop ▸ hasked)
        rw [hc] at hsome
        cases hsome
    | some c =>
      obtain ⟨hstop, hchoice⟩ := isChoice_of_choose? hq hcs hc
      rcases find_of_choose? hmethod hq lookup hcs hc with ⟨f, hf, hwithin, hwidens⟩ | hlong
      · exact .inl ⟨f, c.start, hf, hwithin, hchoice, hstop ▸ hwidens⟩
      · exact .inr (.inr hlong)

end Search

/-! ## The modifiers that search for a word -/

namespace Modifier

variable {m : Modifier} {env : Setting} {target : Target}

/-- **Searches for words are exact.** Whatever the text and the target in it, and for each
query that is not blank: the modifiers that search for a part of a word or for words as they
are spelt answer the occurrence that is to be taken, with the tokens at its edges, which for
whole words is the occurrence itself; or they report that there is nothing, and then nothing
that is asked for occurs. They fail otherwise only where the query stands so far behind that
no span reaches it, and so in no text within the limit. -/
theorem apply_search_exact (env : Setting) {query : Text}
    (hkind : m.kind = .search method proximity) (hmethod : method ≠ .phrase)
    (hquery : m.query = some query) (hq : query.trim ≠ []) (hrep : m.repetitions = 1)
    (hne : t ≠ []) (ht : target.removed.stop ≤ t.length) :
    ((∃ found i, m.apply env t target = .ok found ∧
        Search.IsChoice t method query.trim proximity target.span i ∧
        Token.Widens t i (i + query.trim.length) found.span ∧
        (method = .exactWord →
          found.span.start = i ∧ found.span.stop = i + query.trim.length)) ∨
      (m.apply env t target = .error (.noMatch m.kind) ∧
        ∀ i, Search.OccursAt t method query.trim i →
          ¬proximity.Allows target.span i (i + query.trim.length)) ∨
      Search.Overlong t query.trim ∧ ∃ e, m.apply env t target = .error (.span e)) ∧
    (t.length ≤ Span.limit →
      (m.apply env t target = .error (.noMatch m.kind) ↔
        ∀ i, Search.OccursAt t method query.trim i →
          ¬proximity.Allows target.span i (i + query.trim.length))) := by
  have hsearch := Search.find_exact t target.span proximity env.lookup hmethod hq
  have hfind : m.find env t target.span =
      Search.find t method proximity query env.lookup target.span := by
    unfold find
    rw [hkind, hquery]
    rfl
  rw [← hfind] at hsearch
  have hmust : m.kind.mustFind = true := by
    rw [hkind]
    rfl
  rw [apply_of_step hrep hne ht]
  unfold step
  rcases hsearch with ⟨f, i, hf, hwithin, hchoice, hwidens⟩ | ⟨hnone, hno⟩ | ⟨hlong, e, herr⟩
  · rw [hf]
    simp only [bind, Except.bind, checkWithin_eq_ok_iff.2 hwithin]
    refine ⟨.inl ⟨f, i, rfl, hchoice, hwidens, fun hexact => ?_⟩, fun _ => ⟨nofun, fun hno => ?_⟩⟩
    · subst hexact
      exact hwidens.eq_self hchoice.occurs.allowed.1 hchoice.occurs.allowed.2
    · exact absurd hchoice.asked (hno i hchoice.occurs)
  · rw [hnone]
    simp only [if_pos hmust]
    exact ⟨.inr (.inl ⟨rfl, hno⟩), fun _ => ⟨fun _ => hno, fun _ => rfl⟩⟩
  · rw [herr]
    refine ⟨.inr (.inr ⟨hlong, e, rfl⟩), fun ht => ?_⟩
    exact absurd (hlong.limit_lt_length hq) (Nat.not_lt_of_le ht)

/-- Of two words at the same distance the one behind the target. -/
theorem apply_search_exact_closest :
    let query : Text := [' ', 'o', 'N']
    let m : Modifier := { kind := .search .exactWord .closest, query := some query }
    let env : Setting := ⟨Settings.default, .none⟩
    let t : Text := ['o', 'n', ' ', 'x', ' ', 'O', 'N']
    let target : Target := .ofSpan ⟨3, 4, by decide, by decide⟩
    m.kind = .search .exactWord .closest ∧ m.query = some query ∧ m.repetitions = 1 ∧
      query.trim ≠ [] ∧ t ≠ [] ∧ target.removed.stop ≤ t.length ∧
      Search.IsChoice t .exactWord query.trim .closest target.span 5 ∧
      ∃ found, m.apply env t target = .ok found ∧ found.span.start = 5 ∧ found.span.stop = 7 := by
  intro query m env t target
  have hkind : m.kind = .search .exactWord .closest := by rfl
  have hmethod : SearchMethod.exactWord ≠ .phrase := nofun
  have hquery : m.query = some query := by rfl
  have hrep : m.repetitions = 1 := by rfl
  have hq : query.trim = ['o', 'N'] := by decide +kernel
  have hq' : query.trim ≠ [] := by
    rw [hq]
    exact List.cons_ne_nil _ _
  have hne : t ≠ [] := List.cons_ne_nil _ _
  have ht : target.removed.stop ≤ t.length := by decide
  have hplaces : ∀ j < 6, Search.OccursAt t .exactWord query.trim j → j = 0 ∨ j = 5 := by
    decide +kernel
  have hchoice : Search.IsChoice t .exactWord query.trim .closest target.span 5 := by
    refine ⟨by decide +kernel, trivial, fun j hj _ => ?_⟩
    have hstop := hj.spelled.stop_le_length hq'
    rw [hq] at hstop ⊢
    have hlast : j + 2 ≤ 7 := hstop
    rcases hplaces j (by omega) hj with rfl | rfl
    · exact .inr ⟨by decide, .inl ⟨by decide, by decide⟩⟩
    · exact .inr ⟨rfl, .inr ⟨Iff.rfl, Nat.le_refl _⟩⟩
  refine ⟨hkind, hquery, hrep, hq', hne, ht, hchoice, ?_⟩
  obtain ⟨hresult, -⟩ := apply_search_exact env hkind hmethod hquery hq' hrep hne ht
  rcases hresult with ⟨found, i, happly, hi, -, hspan⟩ | ⟨-, hno⟩ | ⟨hlong, -⟩
  · have hi : i = 5 := hi.unique hchoice
    subst hi
    rw [hq] at hspan
    exact ⟨found, happly, hspan rfl⟩
  · exact absurd hchoice.asked (hno 5 hchoice.occurs)
  · exact absurd (hlong.limit_lt_length hq') (by decide)

end Modifier

end VoiceEdit
