import VoiceEdit.Word.Phrase

/-!
# Readings of a phrase

`Reads words s` says, without any order of trying, that `s` spells the words one behind the
other with separators between them. The matcher finds one such reading of the beginning of
a text, the first in its order of preference: spelling by spelling, the longest gap first.
Which reading that is does not matter where a text has one reading at most.

Results:

* `reads_of_stripWords?`: what is matched is a reading.
* `isSome_stripWords?_of_reads`: where there is a reading, something is matched.
* `Reads.unique`: unambiguous words have one reading of the beginning of a text at most.
* `ofWords?_words`, `spells_kept`: the phrase of some words, and when leaving spellings out
  loses none of its readings.
-/
namespace VoiceEdit.Phrase

open Unicode (fold fold_eq_self)

/-- Up to case, `s` is one of the spellings. -/
def Spells (spellings : List Text) (s : List Char) : Prop :=
  ∃ w ∈ spellings, s.map fold = w.map fold

/-- `s` spells the words in order, with any run of separators between two of them. -/
inductive Reads : List (List Text) → List Char → Prop
  | last {spellings : List Text} {s : List Char} (h : Spells spellings s) : Reads [spellings] s
  | cons {spellings next : List Text} {words : List (List Text)} {s gap rest : List Char}
    (h : Spells spellings s) (hgap : ∀ c ∈ gap, isGap c = true) (hrest : Reads (next :: words) rest) :
    Reads (spellings :: next :: words) (s ++ gap ++ rest)

variable {spellings : List Text} {words : List (List Text)} {s s' rest rest' text : List Char}

/-! ## Matching finds a reading -/

theorem spells_of_findSome? {α : Type} {f : List Char → Option α} {a : α}
    (h : (spellings.findSome? fun w => (strip? w text).bind f) = some a) :
    ∃ s rest, text = s ++ rest ∧ Spells spellings s ∧ f rest = some a := by
  obtain ⟨w, hw, hmatch⟩ := List.exists_of_findSome?_eq_some h
  obtain ⟨rest, hstrip, hf⟩ := Option.bind_eq_some_iff.1 hmatch
  obtain ⟨s, rfl, hs⟩ := eq_append_of_strip? hstrip
  exact ⟨s, rest, rfl, ⟨w, hw, hs⟩, hf⟩

/-- What is matched at the beginning of a text is a reading. -/
theorem reads_of_stripWords? (hne : words ≠ []) (h : stripWords? words text = some rest) :
    ∃ s, text = s ++ rest ∧ Reads words s := by
  induction words generalizing text with
  | nil => exact absurd rfl hne
  | cons spellings words ih =>
    cases words with
    | nil =>
      have h' : (spellings.findSome? fun w => (strip? w text).bind some) = some rest := by
        simpa [stripWords?] using h
      obtain ⟨s, rest', rfl, hs, heq⟩ := spells_of_findSome? h'
      cases heq
      exact ⟨s, rfl, .last hs⟩
    | cons next words =>
      obtain ⟨s, behind, rfl, hs, hafter⟩ := spells_of_findSome? h
      obtain ⟨gap, behind', rfl, hgap, hnext⟩ := afterGap_eq_some hafter
      obtain ⟨r, rfl, hr⟩ := ih (List.cons_ne_nil _ _) hnext
      exact ⟨s ++ gap ++ r, by simp only [List.append_assoc], .cons hs hgap hr⟩

/-! ## Where there is a reading, something is matched -/

theorem isSome_findSome?_of_spells {α : Type} {f : List Char → Option α} (h : Spells spellings s)
    (hf : (f rest).isSome = true) :
    (spellings.findSome? fun w => (strip? w (s ++ rest)).bind f).isSome = true := by
  obtain ⟨w, hw, hs⟩ := h
  rw [List.findSome?_isSome_iff]
  refine ⟨w, hw, ?_⟩
  rw [strip?_append hs, Option.bind_some]
  exact hf

theorem isSome_afterGap {α : Type} {next : List Char → Option α} {gap : List Char}
    (hgap : ∀ c ∈ gap, isGap c = true) (h : (next rest).isSome = true) :
    (afterGap next (gap ++ rest)).isSome = true := by
  induction gap with
  | nil =>
    cases rest with
    | nil => exact h
    | cons c rest =>
      rw [List.nil_append, afterGap]
      split
      · rw [Option.isSome_or, h, Bool.or_true]
      · exact h
  | cons c gap ih =>
    rw [List.cons_append, afterGap, if_pos (hgap c List.mem_cons_self), Option.isSome_or,
      ih fun c' hc' => hgap c' (List.mem_cons_of_mem _ hc'), Bool.true_or]

/-- Where a text begins with a reading, something is matched; not always this reading. -/
theorem isSome_stripWords?_of_reads (h : Reads words s) (rest : List Char) :
    (stripWords? words (s ++ rest)).isSome = true := by
  induction h with
  | last hs =>
    have hrest : (some rest).isSome = true := rfl
    have hmatch := isSome_findSome?_of_spells hs hrest
    simpa [stripWords?] using hmatch
  | cons hs hgap hrest ih =>
    rw [List.append_assoc, List.append_assoc]
    exact isSome_findSome?_of_spells hs (isSome_afterGap hgap ih)

/-! ## Unambiguous words -/

/-- No spelling of a word begins with another one, up to case. -/
def PrefixFree (spellings : List Text) : Prop :=
  ∀ a ∈ spellings, ∀ b ∈ spellings, a.map fold <+: b.map fold → a.map fold = b.map fold

/-- Every spelling begins with a character that is no separator. -/
def StartsBare (spellings : List Text) : Prop :=
  ∀ a ∈ spellings, a.head?.any (fun c => !isGap c) = true

/-- Where a spelling ends is known from what it begins, and where a gap ends from what
stands behind it. -/
structure Unambiguous (words : List (List Text)) : Prop where
  prefixFree : ∀ spellings ∈ words, PrefixFree spellings
  startsBare : ∀ spellings ∈ words.tail, StartsBare spellings

theorem Unambiguous.tail {spellings next : List Text} (h : Unambiguous (spellings :: next :: words)) :
    Unambiguous (next :: words) where
  prefixFree w hw := h.prefixFree w (List.mem_cons_of_mem _ hw)
  startsBare w hw := h.startsBare w (List.mem_cons_of_mem _ hw)

/-- Folding makes no separator and unmakes none. -/
theorem isGap_fold (c : Char) : isGap (fold c) = isGap c := by
  by_cases hc : isGap c = true
  · simp only [isGap, Bool.or_eq_true, beq_iff_eq] at hc
    rcases hc with ((((rfl | rfl) | rfl) | rfl) | rfl) | rfl <;> decide
  · by_cases hf : isGap (fold c) = true
    · have hself : fold c = c := by
        simp only [isGap, Bool.or_eq_true, beq_iff_eq] at hf
        apply fold_eq_self <;> rcases hf with ((((h | h) | h) | h) | h) | h <;> rw [h] <;> decide
      rw [hself]
    · rw [eq_false_of_ne_true hc, eq_false_of_ne_true hf]

/-- Two spellings of one word at the beginning of a text are the same characters. -/
theorem Spells.unique (hfree : PrefixFree spellings) (h : Spells spellings s)
    (h' : Spells spellings s') (heq : s ++ rest = s' ++ rest') : s = s' := by
  obtain ⟨w, hw, hs⟩ := h
  obtain ⟨w', hw', hs'⟩ := h'
  have heither : s <+: s' ∨ s' <+: s :=
    List.prefix_or_prefix_of_prefix (List.prefix_append s rest) (heq ▸ List.prefix_append s' rest')
  rcases heither with hp | hp
  · have hfold := hfree w hw w' hw' (by rw [← hs, ← hs']; exact hp.map fold)
    rw [← hs, ← hs'] at hfold
    exact hp.eq_of_length (by simpa using congrArg List.length hfold)
  · have hfold := hfree w' hw' w hw (by rw [← hs, ← hs']; exact hp.map fold)
    rw [← hs, ← hs'] at hfold
    exact (hp.eq_of_length (by simpa using congrArg List.length hfold)).symm

theorem Spells.startsBare (hbare : StartsBare spellings) (h : Spells spellings s) :
    ∃ c rest, s = c :: rest ∧ isGap c = false := by
  obtain ⟨w, hw, hs⟩ := h
  have hfirst := hbare w hw
  cases w with
  | nil => cases hfirst
  | cons a w =>
    cases s with
    | nil => cases hs
    | cons c s =>
      rw [List.map_cons, List.map_cons, List.cons.injEq] at hs
      refine ⟨c, s, rfl, ?_⟩
      rw [← isGap_fold, hs.1, isGap_fold]
      simpa using hfirst

theorem Reads.startsBare (hbare : StartsBare spellings) (h : Reads (spellings :: words) s) :
    ∃ c rest, s = c :: rest ∧ isGap c = false := by
  cases h with
  | last hs => exact hs.startsBare hbare
  | cons hs hgap hrest =>
    obtain ⟨c, behind, rfl, hc⟩ := hs.startsBare hbare
    exact ⟨c, _, rfl, hc⟩

/-- A gap ends where something else begins. -/
theorem gap_unique {gap gap' : List Char} {c c' : Char} (hgap : ∀ c ∈ gap, isGap c = true)
    (hgap' : ∀ c ∈ gap', isGap c = true) (hc : isGap c = false) (hc' : isGap c' = false)
    (heq : gap ++ c :: rest = gap' ++ c' :: rest') : gap = gap' := by
  have hrun {gap rest : List Char} {c : Char} (hgap : ∀ c ∈ gap, isGap c = true)
      (hc : isGap c = false) : (gap ++ c :: rest).takeWhile isGap = gap := by
    rw [List.takeWhile_append_of_pos hgap, List.takeWhile_cons_of_neg (by rw [hc]; decide),
      List.append_nil]
  rw [← hrun hgap hc, heq, hrun hgap' hc']

/-- Unambiguous words have one reading of the beginning of a text at most. -/
theorem Reads.unique (hu : Unambiguous words) (h : Reads words s) (h' : Reads words s')
    (heq : s ++ rest = s' ++ rest') : s = s' := by
  induction h generalizing s' with
  | last hs =>
    cases h' with
    | last hs' => exact hs.unique (hu.prefixFree _ List.mem_cons_self) hs' heq
  | cons hs hgap hrest ih =>
    cases h' with
    | cons hs' hgap' hrest' =>
      have hbare := hu.startsBare _ List.mem_cons_self
      obtain ⟨c, behind, rfl, hc⟩ := hrest.startsBare hbare
      obtain ⟨c', behind', rfl, hc'⟩ := hrest'.startsBare hbare
      simp only [List.append_assoc] at heq
      have hfirst := hs.unique (hu.prefixFree _ List.mem_cons_self) hs' heq
      subst hfirst
      have hbehind := List.append_cancel_left heq
      have hgaps := gap_unique hgap hgap' hc hc' hbehind
      subst hgaps
      rw [ih hu.tail hrest' (List.append_cancel_left hbehind)]

/-! ## The spellings a phrase keeps -/

/-- The spellings a word may have: those of its homophones that are not empty, and its own. -/
def spellingsOf (spellings : Text → List Text) (word : Text) : List Text :=
  (spellings word ++ [word]).filter (!·.isEmpty)

/-- The spellings a phrase keeps of them. -/
def keptOf (spellings : Text → List Text) (word : Text) : List Text :=
  distinctSpellings [] (spellings word ++ [word])

/-- Spellings that are the same in lowercase are the same up to case. -/
def SameInLowercase (spellings : List Text) : Prop :=
  ∀ a ∈ spellings, ∀ b ∈ spellings, a.lowercase = b.lowercase → a.map fold = b.map fold

theorem mem_of_mem_distinctSpellings {kept more : List Text} {w : Text}
    (h : w ∈ distinctSpellings kept more) : w ∈ kept ∨ w ∈ more ∧ w ≠ [] := by
  fun_induction distinctSpellings kept more with
  | case1 => exact .inl h
  | case2 kept s rest hout ih =>
    exact (ih h).imp_right fun hrest => ⟨List.mem_cons_of_mem _ hrest.1, hrest.2⟩
  | case3 kept s rest hin ih =>
    rcases ih h with hkept | hrest
    · rcases List.mem_append.1 hkept with hkept | hs
      · exact .inl hkept
      · rw [List.mem_singleton] at hs
        subst hs
        refine .inr ⟨List.mem_cons_self, ?_⟩
        rintro rfl
        exact hin rfl
    · exact .inr ⟨List.mem_cons_of_mem _ hrest.1, hrest.2⟩

theorem mem_distinctSpellings_of_mem {kept : List Text} {w : Text} (more : List Text)
    (h : w ∈ kept) : w ∈ distinctSpellings kept more := by
  fun_induction distinctSpellings kept more with
  | case1 => exact h
  | case2 kept s rest _ ih => exact ih h
  | case3 kept s rest _ ih => exact ih (List.mem_append_left _ h)

/-- For a spelling that is left out another is kept, the same in lowercase. -/
theorem exists_kept (kept : List Text) {more : List Text} {w : Text} (h : w ∈ more) (hne : w ≠ []) :
    ∃ k ∈ distinctSpellings kept more, k.lowercase = w.lowercase := by
  fun_induction distinctSpellings kept more with
  | case1 => cases h
  | case2 kept s rest hout ih =>
    rcases List.mem_cons.1 h with rfl | hmem
    · rw [Bool.or_eq_true, List.isEmpty_iff, List.any_eq_true] at hout
      rcases hout with hempty | ⟨k, hk, heq⟩
      · exact absurd hempty hne
      · exact ⟨k, mem_distinctSpellings_of_mem rest hk, eq_of_beq heq⟩
    · exact ih hmem
  | case3 kept s rest _ ih =>
    rcases List.mem_cons.1 h with rfl | hmem
    · exact ⟨w, mem_distinctSpellings_of_mem rest (List.mem_append_right _ List.mem_cons_self), rfl⟩
    · exact ih hmem

variable {spellings : Text → List Text} {w : Text}

theorem mem_spellingsOf : s ∈ spellingsOf spellings w ↔ s ∈ spellings w ++ [w] ∧ s ≠ [] := by
  rw [spellingsOf, List.mem_filter]
  cases s <;> simp

theorem keptOf_subset (h : s ∈ keptOf spellings w) : s ∈ spellingsOf spellings w := by
  rcases mem_of_mem_distinctSpellings h with hkept | hmore
  · cases hkept
  · exact mem_spellingsOf.2 hmore

/-- What is spelt by any of its spellings is spelt by one that is kept. -/
theorem spells_kept (hsame : SameInLowercase (spellingsOf spellings w)) {s : List Char}
    (h : Spells (spellingsOf spellings w) s) : Spells (keptOf spellings w) s := by
  obtain ⟨a, ha, hs⟩ := h
  obtain ⟨hmem, hne⟩ := mem_spellingsOf.1 ha
  obtain ⟨k, hk, hlower⟩ := exists_kept [] hmem hne
  exact ⟨k, hk, hs.trans (hsame a ha k (keptOf_subset hk) hlower.symm)⟩

/-- The phrase of words that are trimmed already. -/
theorem ofWords?_words {ws : List Text} (hne : ws ≠ [])
    (hws : ∀ w ∈ ws, w ≠ [] ∧ ∀ c ∈ w, Unicode.isWhitespace c = false) :
    ofWords? ws spellings = some ⟨ws.map (keptOf spellings)⟩ := by
  have htrim : ws.map Text.trim = ws :=
    (List.map_congr_left fun w hw => Text.trim_eq_self (hws w hw).2).trans (List.map_id ws)
  have hfilter : ws.filter (!·.isEmpty) = ws := by
    refine List.filter_eq_self.2 fun w hw => ?_
    have := (hws w hw).1
    simpa using this
  rw [ofWords?, htrim, hfilter]
  cases ws with
  | nil => exact absurd rfl hne
  | cons w ws => rfl

/-- Readings are kept by whatever spells at least as much. -/
theorem Reads.mono {α : Type} {f g : α → List Text} {as : List α}
    (h : ∀ a ∈ as, ∀ s, Spells (g a) s → Spells (f a) s) (hr : Reads (as.map g) s) :
    Reads (as.map f) s := by
  induction as generalizing s with
  | nil => cases hr
  | cons a as ih =>
    cases as with
    | nil =>
      cases hr with
      | last hs => exact .last (h a List.mem_cons_self _ hs)
    | cons b bs =>
      cases hr with
      | cons hs hgap hrest =>
        exact .cons (h a List.mem_cons_self _ hs) hgap
          (ih (fun a' ha' => h a' (List.mem_cons_of_mem _ ha')) hrest)

end VoiceEdit.Phrase
