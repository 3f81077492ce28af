import VoiceEdit.Word.Phrase

/-!
# Patterns

A search is given to the matcher as a regular expression. The matcher has only the text of it, so
what stands for itself and what is syntax is told by the backslashes. `ofRegex` reads an expression
as the phrase that it is matched by: what lies between two separators is a word, and the
alternatives of a group are its spellings, in their order.
-/
namespace VoiceEdit.Phrase

/-- What the pattern of a phrase is made of: characters that stand for themselves, and the syntax
around them. -/
inductive Token where
  | literal (c : Char)
  | opening
  | bar
  | closing
  | gap
deriving DecidableEq, Repr

/-- The tokens of a pattern. A backslash makes a literal of what follows it. -/
def tokens : Text → List Token
  | [] => []
  | '\\' :: c :: rest => .literal c :: tokens rest
  | '(' :: '?' :: ':' :: rest => .opening :: tokens rest
  | '|' :: rest => .bar :: tokens rest
  | ')' :: rest => .closing :: tokens rest
  | '[' :: ' ' :: '.' :: ',' :: '\\' :: '-' :: '_' :: '"' :: ']' :: '*' :: rest => .gap :: tokens rest
  | c :: rest => .literal c :: tokens rest

/-- The characters that stand for themselves. -/
def literals (ts : List Token) : Text :=
  ts.filterMap fun
    | .literal c => some c
    | _ => none

/-- The spellings of a word: the alternatives of a group, or the one that stands there. -/
def spellingsOfTokens : List Token → List Text
  | .opening :: rest => (rest.dropLast.splitOn .bar).map literals
  | ts => [literals ts]

/-- The phrase that is printed as this pattern, behind the mark that case does not matter. -/
def ofRegex (r : Text) : Phrase := ⟨((tokens (r.drop 4)).splitOn .gap).map spellingsOfTokens⟩

end VoiceEdit.Phrase
