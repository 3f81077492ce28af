import VoiceEdit.Text.Casing

/-!
# Homophones

Words that sound alike. A host answers `SpellingLookup`s in any way it likes;
`Homophones` is a table of groups that answers them. A word belongs to the group it
was last added with.

Results:

* `mem_spellings_self`: a word is among its own spellings, up to case.
-/
namespace VoiceEdit

/-- What a host knows about words that sound alike. -/
structure SpellingLookup where
  /-- Every spelling that sounds like the word. -/
  spellings : Text → List Text
  /-- The spelling to try after the word. -/
  next? : Text → Option Text

/-- The lookup of a host without homophones. -/
def SpellingLookup.none : SpellingLookup := ⟨fun w => [w], fun _ => Option.none⟩

/-- Groups of lowercase words that sound alike, the latest first. -/
structure Homophones where
  groups : List (List Text) := []
deriving DecidableEq, Repr

namespace Homophones

/-- The words of a group as they are kept: trimmed, in lowercase, none empty and none
twice. -/
def distinctWords (kept : List Text) : List Text → List Text
  | [] => kept
  | word :: rest =>
    let word := word.trim.lowercase
    if word.isEmpty || kept.contains word then distinctWords kept rest
    else distinctWords (kept ++ [word]) rest

/-- Adds a group; one of fewer than two distinct words says nothing. -/
def addGroup (h : Homophones) (group : List Text) : Homophones :=
  match distinctWords [] group with
  | first :: second :: rest => ⟨(first :: second :: rest) :: h.groups⟩
  | _ => h

def ofGroups (groups : List (List Text)) : Homophones := groups.foldl addGroup {}

/-- The group a word belongs to. -/
def groupOf? (h : Homophones) (word : Text) : Option (List Text) :=
  h.groups.find? (·.contains word.lowercase)

/-- Every spelling that sounds like the word; the word itself where none is known. -/
def spellings (h : Homophones) (word : Text) : List Text := (h.groupOf? word).getD [word]

/-- The spelling after the word in its group, the first after the last. -/
def next? (h : Homophones) (word : Text) : Option Text := do
  let group ← h.groupOf? word
  group[(group.idxOf word.lowercase + 1) % group.length]?

def lookup (h : Homophones) : SpellingLookup := ⟨h.spellings, h.next?⟩

/-! ## Laws -/

theorem mem_of_groupOf? {h : Homophones} {word : Text} {group : List Text}
    (hg : h.groupOf? word = some group) : word.lowercase ∈ group := by
  simpa using List.find?_some hg

/-- A word is among its own spellings, up to case. -/
theorem mem_spellings_self (h : Homophones) (word : Text) :
    word ∈ h.spellings word ∨ word.lowercase ∈ h.spellings word := by
  unfold spellings
  cases hg : h.groupOf? word with
  | none => simp
  | some group => exact Or.inr (by simpa using mem_of_groupOf? hg)

end Homophones

end VoiceEdit
