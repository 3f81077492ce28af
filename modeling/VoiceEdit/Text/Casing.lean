import VoiceEdit.Text.Chunks
import VoiceEdit.Unicode.CaseIgnorable
import VoiceEdit.Unicode.Cased
import VoiceEdit.Unicode.LowerMapping
import VoiceEdit.Unicode.Lowercase
import VoiceEdit.Unicode.UpperMapping
import VoiceEdit.Unicode.Uppercase

/-!
# Case

The case of a text and how to change it. `lowerChars` maps each character by itself;
`lowercase`, which spellings are compared by, also gives a capital sigma its
word-final form where a word ends.

Results:

* `lowercase_of_no_sigma`: without capital sigmas the two lowercasings agree.
-/
namespace VoiceEdit

open Unicode

namespace Text

/-- Every character in uppercase. -/
def upperChars (t : Text) : Text := t.flatMap upperOf

/-- Every character in lowercase, by itself. -/
def lowerChars (t : Text) : Text := t.flatMap lowerOf

/-- The first character in uppercase, the rest as it is. -/
def capitalizeFirst : Text → Text
  | [] => []
  | c :: rest => upperOf c ++ rest

/-- What comes next is a cased character, looking through case-ignorable ones. -/
def casedNext (t : List Char) : Bool := (t.dropWhile isCaseIgnorable).head?.any isCased

/-- The lowercase of the second argument, which the first stands before, nearest
character first. A capital sigma is final when a cased character comes before it and
none after it. -/
def lowercaseFrom : List Char → List Char → Text
  | _, [] => []
  | prior, c :: rest =>
    let lowered :=
      if c = 'Σ' then [if casedNext prior && !casedNext rest then 'ς' else 'σ'] else lowerOf c
    lowered ++ lowercaseFrom (c :: prior) rest

/-- The text in lowercase, by which spellings are compared. -/
def lowercase (t : Text) : Text := lowercaseFrom [] t

/-- The texts are equal up to the case of ASCII letters. -/
def equalsIgnoringAsciiCase (a b : Text) : Bool := a.map Char.toLower == b.map Char.toLower

/-- Each word capitalised, but minor words after the first in lowercase. The first
argument is the number of words so far. -/
def titleChunks (minor : List Text) : Nat → List Text → Text
  | _, [] => []
  | n, chunk :: rest =>
    if chunk.head?.any isWhitespace then chunk ++ titleChunks minor n rest
    else if decide (0 < n) && minor.any (equalsIgnoringAsciiCase · chunk) then
      lowerChars chunk ++ titleChunks minor (n + 1) rest
    else capitalizeFirst chunk ++ titleChunks minor (n + 1) rest

/-- The text in title case. -/
def titleCase (minor : List Text) (t : Text) : Text := titleChunks minor 0 (chunks isWhitespace t)

end Text

/-- How a word is capitalised. -/
inductive Capitalization where
  | uppercase
  | firstOnly
  | lowercase
deriving DecidableEq, Repr

namespace Capitalization

/-- `text` capitalised in this way; `firstOnly` leaves what follows as it is. -/
def apply : Capitalization → Text → Text
  | .uppercase, text => text.upperChars
  | .firstOnly, text => text.capitalizeFirst
  | .lowercase, text => text.lowerChars

/-- The way `word` is capitalised: uppercase takes two capitals and no small letter. -/
def guess : Text → Capitalization
  | [] => .lowercase
  | first :: rest =>
    if !isAlphabetic first then .lowercase
    else if decide (2 ≤ (first :: rest).countP isUppercase) && !(first :: rest).any isLowercase then
      .uppercase
    else if isUppercase first then .firstOnly
    else .lowercase

end Capitalization

namespace Text

/-! ## Laws -/

theorem lowercaseFrom_of_no_sigma {prior t : List Char} (h : 'Σ' ∉ t) :
    lowercaseFrom prior t = lowerChars t := by
  induction t generalizing prior with
  | nil => rfl
  | cons c rest ih =>
    simp only [List.mem_cons, not_or] at h
    simp [lowercaseFrom, lowerChars, Ne.symm h.1, ih h.2]

/-- Without capital sigmas the two lowercasings agree. -/
theorem lowercase_of_no_sigma {t : Text} (h : 'Σ' ∉ t) : t.lowercase = t.lowerChars :=
  lowercaseFrom_of_no_sigma h

end Text

end VoiceEdit
