import VoiceEdit.Prose.Sentence
import VoiceEdit.Word.Search

/-!
# Kinds of modifiers

What a modifier looks for and which one it takes. A kind has one name, a list of words,
that is written in two ways: `EXACT_WORD_NEXT` where kinds are exchanged, `ExactWordNext`
where a message names one.

Results:

* `mem_all`: the list of kinds is complete.
* `ofCode?_code`: a kind is found by the name it is exchanged by.
-/
namespace VoiceEdit

/-- Which structure is taken: the one here, or one by its place in the text. -/
inductive Place where
  | here
  | first
  | next
  | previous
deriving DecidableEq, Repr

/-- Which neighbour is taken. -/
inductive Direction where
  | next
  | previous
deriving DecidableEq, Repr

/-- Which sentence is taken. -/
inductive Step where
  | here
  | next
  | previous
deriving DecidableEq, Repr

/-- What a modifier looks for. -/
inductive Modifier.Kind where
  | token (d : Direction)
  | search (m : SearchMethod) (p : Proximity)
  | comment (o : Place)
  | literal (o : Place)
  | call (o : Place)
  | argument (o : Place)
  | brackets (o : Place)
  | indentedBlock
  | bracedBlock
  | sentence (k : SentenceKind) (s : Step)
  | link
  | sectionEnd
  | line (withBreak : Bool)
  | lineStart
  | lineEnd
  | betweenWhitespace
deriving DecidableEq, Repr

namespace Modifier.Kind

/-! ## Names -/

def placeWords : Place → List String
  | .here => []
  | .first => ["first"]
  | .next => ["next"]
  | .previous => ["previous"]

def stepWords : Step → List String
  | .here => []
  | .next => ["next"]
  | .previous => ["previous"]

def directionWords : Direction → List String
  | .next => ["next"]
  | .previous => ["previous"]

def proximityWords : Proximity → List String
  | .closest => ["closest"]
  | .next => ["next"]
  | .previous => ["previous"]

def methodWords : SearchMethod → List String
  | .substring => ["word", "substring"]
  | .exactWord => ["exact", "word"]
  | .phrase => ["phrase"]

def sentenceWords : SentenceKind → List String
  | .sentence => ["sentence"]
  | .clause => ["sentence", "clause"]

/-- The name of a kind, word by word. -/
def words : Kind → List String
  | .token d => "token" :: directionWords d
  | .search m p => methodWords m ++ proximityWords p
  | .comment o => "comment" :: placeWords o
  | .literal o => "string" :: placeWords o
  | .call o => "function" :: "call" :: placeWords o
  | .argument o => "argument" :: placeWords o
  | .brackets o => "brackets" :: placeWords o
  | .indentedBlock => ["python", "scope"]
  | .bracedBlock => ["c", "scope"]
  | .sentence k s => sentenceWords k ++ stepWords s
  | .link => ["markdown", "link"]
  | .sectionEnd => ["markdown", "section", "end"]
  | .line true => ["line", "including", "line", "break"]
  | .line false => ["line", "excluding", "line", "break"]
  | .lineStart => ["start", "of", "line"]
  | .lineEnd => ["end", "of", "line"]
  | .betweenWhitespace => ["between", "whitespace"]

/-- The name a kind is exchanged by. -/
def code (k : Kind) : String := "_".intercalate (k.words.map String.toUpper)

/-- The name a message gives a kind. -/
def title (k : Kind) : String := String.join (k.words.map String.capitalize)

/-! ## The list of kinds -/

def places : List Place := [.here, .first, .next, .previous]

def steps : List Step := [.here, .next, .previous]

def proximities : List Proximity := [.closest, .next, .previous]

/-- Every kind. -/
def all : List Kind :=
  [.token .next, .token .previous] ++
  [SearchMethod.substring, .exactWord, .phrase].flatMap (fun m => proximities.map (.search m)) ++
  places.map .comment ++ places.map .literal ++ places.map .call ++ places.map .argument ++
  places.map .brackets ++ [.indentedBlock, .bracedBlock] ++
  steps.map (.sentence .sentence) ++ steps.map (.sentence .clause) ++
  [.link, .sectionEnd, .line true, .line false, .lineStart, .lineEnd, .betweenWhitespace]

/-- The kind that is exchanged by this name. -/
def ofCode? (s : String) : Option Kind := all.find? (·.code == s)

/-- The kinds that fail when they find nothing; the others keep what they were given. -/
def mustFind : Kind → Bool
  | .token _ | .search _ _ | .indentedBlock => true
  | _ => false

/-! ## Laws -/

/-- The list of kinds is complete. -/
theorem mem_all (k : Kind) : k ∈ all := by
  cases k with
  | token d => cases d <;> decide
  | search m p => cases m <;> cases p <;> decide
  | comment o | literal o | call o | argument o | brackets o => cases o <;> decide
  | sentence k s => cases k <;> cases s <;> decide
  | line b => cases b <;> decide
  | indentedBlock | bracedBlock | link | sectionEnd | lineStart | lineEnd | betweenWhitespace => decide

theorem ofCode?_code_of_mem : ∀ k ∈ all, ofCode? k.code = some k := by decide +kernel

/-- A kind is found by the name it is exchanged by. -/
theorem ofCode?_code (k : Kind) : ofCode? k.code = some k := ofCode?_code_of_mem k (mem_all k)

end Modifier.Kind

end VoiceEdit
