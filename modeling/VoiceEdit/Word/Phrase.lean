import VoiceEdit.Text.Casing
import VoiceEdit.Unicode.Folding

/-!
# Phrases

A spoken phrase has lost its punctuation and its spelling. A `Phrase` lists for each
word the spellings it may have; between two words any run of separators may stand.
One value is both printed as a regular expression (`toRegex`) and matched (`match?`),
without regard to case. A literal search is a phrase of one word with one spelling.

Results:

* `eq_append_of_strip?`: what `strip?` removes is the spelling, up to case.
* `afterGap_eq_some`: a gap is skipped over separators only.
-/
namespace VoiceEdit

open Unicode (fold isWhitespace)

/-- For each word, the spellings it may have, the preferred first. -/
structure Phrase where
  words : List (List Text)
deriving DecidableEq, Repr

namespace Phrase

/-! ## Building -/

/-- The spellings that add something: empty ones and those that repeat an earlier one
up to case are left out. -/
def distinctSpellings (kept : List Text) : List Text → List Text
  | [] => kept
  | s :: rest =>
    if s.isEmpty || kept.any (fun k => k.lowercase == s.lowercase) then distinctSpellings kept rest
    else distinctSpellings (kept ++ [s]) rest

/-- The phrase of the words that are not blank, each with the spellings of its
homophones and its own; `none` when no word is left. -/
def ofWords? (words : List Text) (spellings : Text → List Text) : Option Phrase :=
  match (words.map Text.trim).filter (!·.isEmpty) with
  | [] => none
  | words => some ⟨words.map fun w => distinctSpellings [] (spellings w ++ [w])⟩

/-- The phrase of one word that is spelt exactly like this. -/
def literal (spelling : Text) : Phrase := ⟨[[spelling]]⟩

/-! ## Printing -/

/-- The characters that mean something in a regular expression. -/
def isMeta (c : Char) : Bool :=
  ['\\', '.', '+', '*', '?', '(', ')', '|', '[', ']', '\x7b', '\x7d', '^', '$', '#', '&', '-',
    '~'].contains c

/-- A spelling as a regular expression that matches nothing else. -/
def escape : Text → Text
  | [] => []
  | c :: rest => if isMeta c then '\\' :: c :: escape rest else c :: escape rest

/-- The regular expression for what may stand between two words. -/
def separatorRegex : Text := "[ .,\\-_\"]*".toList

/-- A word as a regular expression: its spelling, or a group of alternatives. -/
def wordRegex : List Text → Text
  | [s] => escape s
  | spellings => "(?:".toList ++ ['|'].intercalate (spellings.map escape) ++ [')']

/-- The phrase as a regular expression that ignores case. -/
def toRegex (p : Phrase) : Text :=
  "(?i)".toList ++ separatorRegex.intercalate (p.words.map wordRegex)

/-! ## Matching -/

/-- The characters that may stand between two words. -/
def isGap (c : Char) : Bool :=
  c == ' ' || c == '.' || c == ',' || c == '-' || c == '_' || c == '"'

/-- What is left of a text that begins with the spelling, up to case. -/
def strip? : Text → List Char → Option (List Char)
  | [], rest => some rest
  | _ :: _, [] => none
  | s :: spelling, c :: rest => if fold s = fold c then strip? spelling rest else none

/-- `next` after as much of a gap as it allows, the longest gap tried first. -/
def afterGap {α : Type} (next : List Char → Option α) : List Char → Option α
  | [] => next []
  | c :: rest => if isGap c then (afterGap next rest).or (next (c :: rest)) else next (c :: rest)

/-- What is left of a text that begins with the words. Spellings are tried in order,
and the first choice that lets the rest match wins. -/
def stripWords? : List (List Text) → List Char → Option (List Char)
  | [], rest => some rest
  | [spellings], text => spellings.findSome? (strip? · text)
  | spellings :: words, text =>
    spellings.findSome? fun s => (strip? s text).bind (afterGap (stripWords? words))

/-- The length of the match at the beginning of a text. -/
def match? (p : Phrase) (text : List Char) : Option Nat :=
  (stripWords? p.words text).map fun rest => text.length - rest.length

/-- The start and length of the match at each position that has one, for a text that
begins at offset `pos`. -/
def occurrencesFrom (p : Phrase) (pos : Nat) : List Char → List (Nat × Nat)
  | [] => []
  | c :: rest =>
    match p.match? (c :: rest) with
    | some n => (pos, n) :: occurrencesFrom p (pos + 1) rest
    | none => occurrencesFrom p (pos + 1) rest

/-! ## Laws -/

/-- What `strip?` removes is the spelling, up to case. -/
theorem eq_append_of_strip? {spelling text rest : List Char} (h : strip? spelling text = some rest) :
    ∃ s, text = s ++ rest ∧ s.map fold = spelling.map fold := by
  fun_induction strip? spelling text with
  | case1 => cases h; exact ⟨[], rfl, rfl⟩
  | case2 => cases h
  | case3 s spelling c text hc ih =>
    obtain ⟨w, rfl, hw⟩ := ih h
    exact ⟨c :: w, rfl, by simp [hw, hc]⟩
  | case4 => cases h

theorem strip?_append {spelling s : List Char} (h : s.map fold = spelling.map fold)
    (rest : List Char) : strip? spelling (s ++ rest) = some rest := by
  induction spelling generalizing s with
  | nil => simp at h; subst h; rfl
  | cons a spelling ih =>
    cases s with
    | nil => simp at h
    | cons c s =>
      simp only [List.map_cons, List.cons.injEq] at h
      simp [strip?, h.1, ih h.2]

/-- A gap is skipped over separators only. -/
theorem afterGap_eq_some {α : Type} {next : List Char → Option α} {text : List Char} {a : α}
    (h : afterGap next text = some a) :
    ∃ gap rest, text = gap ++ rest ∧ (∀ c ∈ gap, isGap c = true) ∧ next rest = some a := by
  induction text with
  | nil => exact ⟨[], [], rfl, by simp, h⟩
  | cons c text ih =>
    simp only [afterGap] at h
    split at h
    · rename_i hc
      rcases Option.or_eq_some_iff.1 h with h | ⟨-, h⟩
      · obtain ⟨gap, rest, rfl, hgap, hnext⟩ := ih h
        exact ⟨c :: gap, rest, rfl, by simpa [hc] using hgap, hnext⟩
      · exact ⟨[], c :: text, rfl, by simp, h⟩
    · exact ⟨[], c :: text, rfl, by simp, h⟩

end Phrase

end VoiceEdit
