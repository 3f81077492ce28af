import VoiceEdit.Unicode.Alphabetic
import VoiceEdit.Unicode.Numeric
import VoiceEdit.Unicode.Whitespace

/-!
# Classes of characters

The classes that tokens, sentences, arguments and groups are made of. `isWord` knows
all scripts; the others name their members.
-/
namespace VoiceEdit

open Unicode (isAlphabetic isNumeric isWhitespace)

/-- A letter or digit of any script. -/
def isAlphanumeric (c : Char) : Bool := isAlphabetic c || isNumeric c

/-- What tokens are made of. -/
def isWord (c : Char) : Bool := isAlphanumeric c || c == '_'

/-- The whitespace that lays out code: space, tab and newline. -/
def isLayout (c : Char) : Bool := c == ' ' || c == '\t' || c == '\n'

/-- Whitespace that stays on its line. -/
def isBlank (c : Char) : Bool := c == ' ' || c == '\t'

def isSentenceTerminator (c : Char) : Bool := c == '.' || c == '!' || c == '?'

def isSentenceDelimiter (c : Char) : Bool := isSentenceTerminator c || c == '\n'

def isClauseDelimiter (c : Char) : Bool :=
  isSentenceDelimiter c || c == ',' || c == ':' || c == ';' || c == '(' || c == ')'

/-- What stands between two arguments. -/
def isSeparator (c : Char) : Bool := c == ',' || c == ';'

/-- Brackets that group arguments. Angle brackets are more often comparisons. -/
def isOpenGroup (c : Char) : Bool := c == '(' || c == '[' || c == '{'

def isCloseGroup (c : Char) : Bool := c == ')' || c == ']' || c == '}'

/-- The characters a line ends after; a carriage return and the newline behind it
end one line together. -/
def isLineBreak (c : Char) : Bool :=
  c == '\n' || c == '\r' || c == '\u000B' || c == '\u000C' || c == '\u0085' ||
    c == '\u2028' || c == '\u2029'

theorem isWhitespace_of_isBlank {c : Char} (h : isBlank c = true) : isWhitespace c = true := by
  simp only [isBlank, Bool.or_eq_true, beq_iff_eq] at h
  rcases h with rfl | rfl <;> decide

theorem not_isCloseGroup_of_isOpenGroup {c : Char} (h : isOpenGroup c = true) :
    isCloseGroup c = false := by
  simp only [isOpenGroup, Bool.or_eq_true, beq_iff_eq] at h
  rcases h with (rfl | rfl) | rfl <;> decide

/-- A separator groups nothing. -/
theorem not_group_of_isSeparator {c : Char} (h : isSeparator c = true) :
    isOpenGroup c = false ∧ isCloseGroup c = false := by
  simp only [isSeparator, Bool.or_eq_true, beq_iff_eq] at h
  rcases h with rfl | rfl <;> decide

end VoiceEdit
