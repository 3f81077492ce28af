import VoiceEdit.Proofs.Word.Reading
import VoiceEdit.Word.Search

/-!
# Phrases and their patterns

A phrase is printed as a regular expression, and the expression says which phrase it was. Whatever
a spelling is made of, none of it is taken for the syntax around it: what means something in a
regular expression stands behind a backslash in a spelling, and bare in the syntax. So the tokens of
an expression are read off from left to right, and the words lie between the separators. A search
by the expression is therefore a search for the phrase.

Results:

* `lexes_escape`, `lexes_separatorRegex`, `lexes_wordRegex`: the tokens of what a phrase is printed as.
* `ofRegex_toRegex`: reading a printed phrase gives the phrase back.
* `distinctSpellings_eq`: the spellings that a phrase keeps of a word.
* `toRegex_determines_words`: the pattern of some words determines what was kept of each of them.
* `Search.find_eq`: what is found by the pattern of a query.
-/
namespace VoiceEdit.Phrase

/-! ## Tokens -/

variable {r sep : Text} {spellings : List Text} {ts : List Token}

/-- `r` is read as these tokens, whatever stands behind it. -/
def Lexes (r : Text) (ts : List Token) : Prop := ∀ rest, tokens (r ++ rest) = ts ++ tokens rest

theorem Lexes.append {r' : Text} {ts' : List Token} (h : Lexes r ts) (h' : Lexes r' ts') :
    Lexes (r ++ r') (ts ++ ts') := by
  intro rest
  rw [List.append_assoc, h, h', List.append_assoc]

/-- Pieces with separators between them are read piece by piece. -/
theorem Lexes.intercalate {α : Type} {f : α → Text} {g : α → List Token} (as : List α)
    (hsep : Lexes sep ts) (h : ∀ a ∈ as, Lexes (f a) (g a)) :
    Lexes (sep.intercalate (as.map f)) (ts.intercalate (as.map g)) := by
  induction as with
  | nil => exact fun rest => rfl
  | cons a as ih =>
    have ha := h a List.mem_cons_self
    cases as with
    | nil => simpa using ha
    | cons b bs =>
      have hrest := ih fun a' ha' => h a' (List.mem_cons_of_mem _ ha')
      simp only [List.map_cons] at hrest ⊢
      rw [List.intercalate_cons_of_ne_nil (List.cons_ne_nil _ _),
        List.intercalate_cons_of_ne_nil (List.cons_ne_nil _ _)]
      exact (ha.append hsep).append hrest

/-! ## The tokens of a phrase -/

theorem tokens_of_not_isMeta {c : Char} (h : isMeta c = false) (rest : List Char) :
    tokens (c :: rest) = .literal c :: tokens rest := by
  have hne {d : Char} (hd : isMeta d = true) : c ≠ d := by
    rintro rfl
    rw [hd] at h
    cases h
  rw [tokens]
  all_goals intros
  · exact absurd ‹_› (hne (by decide))
  · exact absurd ‹_› (hne (by decide))
  · exact absurd ‹_› (hne (by decide))
  · exact absurd ‹_› (hne (by decide))
  · exact absurd ‹_› (hne (by decide))

/-- An escaped spelling is read as its characters, each of which stands for itself. -/
theorem lexes_escape (s : Text) : Lexes (escape s) (s.map .literal) := by
  intro rest
  induction s with
  | nil => rfl
  | cons c s ih =>
    rw [escape]
    split
    · simp [tokens, ih]
    · rename_i hc
      simp [tokens_of_not_isMeta (eq_false_of_ne_true hc), ih]

theorem lexes_separatorRegex : Lexes separatorRegex [.gap] := fun _ => rfl

/-- The tokens of a word. -/
def wordTokens : List Text → List Token
  | [s] => s.map .literal
  | spellings => .opening :: [.bar].intercalate (spellings.map (·.map .literal)) ++ [.closing]

theorem lexes_wordRegex (spellings : List Text) : Lexes (wordRegex spellings) (wordTokens spellings) := by
  fun_cases wordRegex spellings with
  | case1 s => exact lexes_escape s
  | case2 _ hmany =>
    have hopening : Lexes "(?:".toList [.opening] := fun _ => rfl
    have hbar : Lexes ['|'] [.bar] := fun _ => rfl
    have hclosing : Lexes [')'] [.closing] := fun _ => rfl
    rw [wordTokens.eq_2 spellings hmany]
    exact (hopening.append (hbar.intercalate _ fun s _ => lexes_escape s)).append hclosing

/-! ## Reading a pattern -/

@[simp] theorem literals_map_literal (s : Text) : literals (s.map .literal) = s := by
  induction s with
  | nil => rfl
  | cons c s ih => exact congrArg (c :: ·) ih

/-- What lies in pieces with separators between them lies in a piece or in a separator. -/
theorem forall_mem_intercalate {α : Type} {p : α → Prop} {sep : List α} {pieces : List (List α)}
    (hsep : ∀ a ∈ sep, p a) (h : ∀ piece ∈ pieces, ∀ a ∈ piece, p a) :
    ∀ a ∈ sep.intercalate pieces, p a := by
  induction pieces with
  | nil =>
    intro a ha
    simp at ha
  | cons piece pieces ih =>
    have hpiece := h piece List.mem_cons_self
    have hpieces := ih fun piece' hmem => h piece' (List.mem_cons_of_mem _ hmem)
    cases pieces with
    | nil => simpa using hpiece
    | cons next pieces =>
      intro a ha
      rw [List.intercalate_cons_of_ne_nil (List.cons_ne_nil _ _), List.append_assoc] at ha
      simp only [List.mem_append] at ha
      rcases ha with ha | ha | ha
      · exact hpiece a ha
      · exact hsep a ha
      · exact hpieces a ha

/-- No separator stands in a word. -/
theorem gap_not_mem_wordTokens (spellings : List Text) : Token.gap ∉ wordTokens spellings := by
  unfold wordTokens
  split
  · simp
  · have hmem : ∀ a ∈ [Token.bar].intercalate (spellings.map (·.map .literal)), a ≠ .gap := by
      refine forall_mem_intercalate (by simp) ?_
      simp
    intro hgap
    simp only [List.mem_append, List.mem_cons] at hgap
    rcases hgap with (hgap | hgap) | hgap
    · cases hgap
    · exact hmem _ hgap rfl
    · simp at hgap

theorem spellingsOfTokens_wordTokens (h : spellings ≠ []) :
    spellingsOfTokens (wordTokens spellings) = spellings := by
  unfold wordTokens
  split
  · rename_i s
    cases s with
    | nil => rfl
    | cons c s => exact congrArg ([·]) (literals_map_literal (c :: s))
  · have hbar : ∀ l ∈ spellings.map (·.map Token.literal), Token.bar ∉ l := by simp
    rw [List.cons_append, spellingsOfTokens, List.dropLast_concat,
      List.splitOn_intercalate _ hbar (by simpa using h), List.map_map]
    simp [Function.comp_def]

/-- **Reading what is printed.** Reading the pattern of a phrase gives the phrase back. -/
theorem ofRegex_toRegex {p : Phrase} (hne : p.words ≠ []) (hwords : ∀ spellings ∈ p.words, spellings ≠ []) :
    ofRegex p.toRegex = p := by
  have hlexes := lexes_separatorRegex.intercalate p.words fun w _ => lexes_wordRegex w
  have htokens : tokens (p.toRegex.drop 4) = [Token.gap].intercalate (p.words.map wordTokens) := by
    have hdrop : p.toRegex.drop 4 = separatorRegex.intercalate (p.words.map wordRegex) := rfl
    have hall := hlexes []
    rw [List.append_nil, tokens, List.append_nil] at hall
    rw [hdrop, hall]
  have hgap : ∀ l ∈ p.words.map wordTokens, Token.gap ∉ l := by
    simpa using fun w _ => gap_not_mem_wordTokens w
  have hread : (p.words.map wordTokens).map spellingsOfTokens = p.words := by
    rw [List.map_map]
    exact (List.map_congr_left fun w hw => spellingsOfTokens_wordTokens (hwords w hw)).trans
      (List.map_id _)
  rw [ofRegex, htokens, List.splitOn_intercalate _ hgap (by simpa using hne), hread]

/-! ## What a phrase keeps -/

/-- The words of which something is spoken, without the white space around them. -/
def spoken (words : List Text) : List Text := (words.map Text.trim).filter (!·.isEmpty)

/-- The spellings are the same in lowercase. -/
def sameSpelling (a b : Text) : Bool := a.lowercase == b.lowercase

theorem sameSpelling_comm (a b : Text) : sameSpelling a b = sameSpelling b a := BEq.comm

/-- The spelling is not empty and not the same as one that is kept already. -/
def adds (kept : List Text) (s : Text) : Bool := !(s.isEmpty || kept.any (sameSpelling · s))

/-- Of spellings that are the same in lowercase the first is kept, unless there is one already. -/
theorem distinctSpellings_eq (kept more : List Text) :
    distinctSpellings kept more = kept ++ (more.filter (adds kept)).eraseDupsBy sameSpelling := by
  fun_induction distinctSpellings kept more with
  | case1 => simp
  | case2 kept s rest hout ih =>
    have hdrop : ¬adds kept s = true := by
      rw [adds, show (s.isEmpty || kept.any (sameSpelling · s)) = true from hout]
      exact Bool.false_ne_true
    rw [ih, List.filter_cons_of_neg hdrop]
  | case3 kept s rest hin ih =>
    have hkeep : adds kept s = true := by
      rw [adds, show (s.isEmpty || kept.any (sameSpelling · s)) = false from eq_false_of_ne_true hin]
      rfl
    rw [ih, List.filter_cons_of_pos hkeep, List.eraseDupsBy_cons, List.filter_filter, List.append_assoc,
      List.singleton_append]
    congr 4
    funext b
    cases hb : sameSpelling b s <;> simp [adds, sameSpelling_comm s b, hb]

theorem keptOf_eq (lookup : Text → List Text) (w : Text) :
    keptOf lookup w = (spellingsOf lookup w).eraseDupsBy sameSpelling := by
  have hadds : adds [] = (!·.isEmpty) := by
    funext s
    simp [adds]
  rw [keptOf, distinctSpellings_eq, List.nil_append, spellingsOf, hadds]

theorem ofWords?_eq (lookup : Text → List Text) {words : List Text} (h : spoken words ≠ []) :
    ofWords? words lookup = some ⟨(spoken words).map (keptOf lookup)⟩ := by
  unfold ofWords?
  split
  · exact absurd ‹_› h
  · rfl

/-- Something is kept of every word. -/
theorem keptOf_ne_nil (lookup : Text → List Text) {w : Text} (h : w ≠ []) : keptOf lookup w ≠ [] := by
  obtain ⟨k, hk, -⟩ := exists_kept [] (List.mem_append_right (lookup w) (List.mem_singleton_self w)) h
  exact List.ne_nil_of_mem hk

theorem ofRegex_toRegex_of_ofWords? {words : List Text} {lookup : Text → List Text} {p : Phrase}
    (h : ofWords? words lookup = some p) : ofRegex p.toRegex = p := by
  have hne : spoken words ≠ [] := by
    intro hnil
    rw [ofWords?, ← spoken, hnil] at h
    cases h
  rw [ofWords?_eq lookup hne] at h
  cases h
  refine ofRegex_toRegex (by simpa using hne) fun spellings hmem => ?_
  obtain ⟨w, hw, rfl⟩ := List.mem_map.1 hmem
  exact keptOf_ne_nil lookup (by simpa using (List.mem_filter.1 hw).2)

/-- **A pattern determines its words.** Words of which at least one is not blank have a pattern, for
every lookup of spellings. Reading it gives for each word that is not blank, in order, the spellings
of its homophones and then its own, without empty ones and without those that an earlier one is the
same as in lowercase. So the patterns of any two lists of words, each by its own lookup, are the same
only if the same spellings are kept. -/
theorem toRegex_determines_words (words : List Text) (lookup : Text → List Text)
    (h : ∃ w ∈ words, w.trim ≠ []) :
    ∃ p, ofWords? words lookup = some p ∧
      (ofRegex p.toRegex).words =
        (spoken words).map (fun w => (spellingsOf lookup w).eraseDupsBy sameSpelling) ∧
      ∀ words' lookup' p', ofWords? words' lookup' = some p' →
        (p'.toRegex = p.toRegex ↔ p'.words = p.words) := by
  obtain ⟨w, hw, hne⟩ := h
  have hspoken : spoken words ≠ [] := by
    refine List.ne_nil_of_mem (List.mem_filter.2 ⟨List.mem_map_of_mem hw, ?_⟩)
    simpa using hne
  have hp := ofWords?_eq lookup hspoken
  have hread := ofRegex_toRegex_of_ofWords? hp
  refine ⟨_, hp, ?_, ?_⟩
  · rw [hread]
    exact List.map_congr_left fun w _ => keptOf_eq lookup w
  · intro words' lookup' p' hp'
    have hread' := ofRegex_toRegex_of_ofWords? hp'
    constructor
    · intro heq
      rw [← hread', heq, hread]
    · intro heq
      rw [toRegex, heq]
      rfl

/-- The words `(c)` and a bar between brackets, the second with a homophone that ends like the mark
for case. Nothing of it is taken for a group, a bar or a separator. -/
theorem toRegex_determines_words_meta :
    let words : List Text := [['(', 'c', ')'], [' '], ['[', '|', ']', '*']]
    let lookup : Text → List Text := fun w => if w = ['(', 'c', ')'] then [] else [['?', ':', '|'], []]
    (∃ w ∈ words, w.trim ≠ []) ∧
      ∃ p, ofWords? words lookup = some p ∧
        (ofRegex p.toRegex).words =
          [[['(', 'c', ')']], [['?', ':', '|'], ['[', '|', ']', '*']]] ∧
        ∀ words' lookup' p', ofWords? words' lookup' = some p' →
          (p'.toRegex = p.toRegex ↔ p'.words = p.words) := by
  intro words lookup
  have h : ∃ w ∈ words, w.trim ≠ [] := by decide +kernel
  obtain ⟨p, hp, hread, hunique⟩ := toRegex_determines_words words lookup h
  have hkept : (spoken words).map (fun w => (spellingsOf lookup w).eraseDupsBy sameSpelling) =
      [[['(', 'c', ')']], [['?', ':', '|'], ['[', '|', ']', '*']]] := by
    decide +kernel
  exact ⟨h, p, hp, hread.trans hkept, hunique⟩

end VoiceEdit.Phrase

namespace VoiceEdit.Search

open Phrase (ofRegex)

variable {method : SearchMethod} {query : Text} {lookup : SpellingLookup} {p : Phrase}

/-- The pattern of a query is read as what the query asks for. -/
theorem ofRegex_toRegex_of_phraseOf? (h : phraseOf? method query lookup = some p) :
    ofRegex p.toRegex = p := by
  unfold phraseOf? at h
  by_cases hempty : query.trim.isEmpty = true
  · rw [if_pos hempty] at h
    cases h
  · rw [if_neg hempty] at h
    cases method with
    | substring | exactWord =>
      cases h
      exact Phrase.ofRegex_toRegex (List.cons_ne_nil _ _) (by simp [Phrase.literal])
    | phrase => exact Phrase.ofRegex_toRegex_of_ofWords? h

/-- **Searching by pattern.** The candidates of a search, which are matched by its pattern, are those
of the phrase that the query asks for. -/
theorem find_eq (t : Text) (method : SearchMethod) (proximity : Proximity) (query : Text)
    (lookup : SpellingLookup) (s : Span) : find t method proximity query lookup s =
      match phraseOf? method query lookup with
      | none => return none
      | some p => do
        match choose? (← candidates t method p) s proximity with
        | none => return none
        | some c => return some (← Token.target t (← Token.bounds t c.start c.stop)) := by
  unfold find patternOf?
  cases hp : phraseOf? method query lookup with
  | none => rfl
  | some p =>
    have hread := ofRegex_toRegex_of_phraseOf? hp
    simp only [Option.map_some]
    generalize ofRegex p.toRegex = read at hread
    subst hread
    rfl

end VoiceEdit.Search
