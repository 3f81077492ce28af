import VoiceEdit.Code.Argument
import VoiceEdit.Code.Block
import VoiceEdit.Code.Bracket
import VoiceEdit.Code.Call
import VoiceEdit.Code.Comment
import VoiceEdit.Code.Literal
import VoiceEdit.Layout.Line
import VoiceEdit.Modifier.Kind
import VoiceEdit.Prose.Markdown

/-!
# Modifiers

A modifier turns one target into another: the word behind it, the call around it, the
sentence it lies in. Applied `repetitions` times, it starts each time from what it found
before. Most kinds keep their target where they find nothing.

Results:

* `steps_succ`: one more repetition is one more step.
-/
namespace VoiceEdit

/-- A modifier as it is asked for. `query` is for the searches, `delimiter` for the
string literals. -/
structure Modifier where
  kind : Modifier.Kind
  repetitions : Nat := 1
  query : Option Text := none
  delimiter : Char := '"'
deriving DecidableEq, Repr

namespace Modifier

inductive Error where
  | noMatch (kind : Kind)
  | badRepetitions (n : Nat)
  | span (e : Span.Error)
deriving DecidableEq, Repr

def Error.message : Error → String
  | .noMatch kind => kind.title ++ " found no match"
  | .badRepetitions n => s!"modifier repeat count must be at least 1, got {n}"
  | .span e => e.message

/-- What a modifier may look at besides the text. -/
structure Setting where
  settings : Settings
  lookup : SpellingLookup

def selectSpan : Except Span.Error (Option Span) → Except Span.Error (Option Target) :=
  Functor.map (Option.map Target.ofSpan)

def targetOf {α : Type} (f : α → Except Span.Error Target) :
    Option α → Except Span.Error (Option Target)
  | some a => some <$> f a
  | none => return none

/-- What the modifier finds from `s` in one step. -/
def find (m : Modifier) (env : Setting) (t : Text) (s : Span) :
    Except Span.Error (Option Target) :=
  match m.kind with
  | .token .next => Token.next t s
  | .token .previous => Token.previous t s
  | .search method proximity => Search.find t method proximity (m.query.getD []) env.lookup s
  | .comment .here => Comment.around? t env.settings s >>= targetOf Comment.target
  | .comment .first => Comment.first? t env.settings s >>= targetOf Comment.target
  | .comment .next => Comment.next? t env.settings s >>= targetOf Comment.target
  | .comment .previous => Comment.previous? t env.settings s >>= targetOf Comment.target
  | .literal .here => targetOf Literal.target (Literal.around? t m.delimiter s)
  | .literal .first => Literal.first? t m.delimiter s >>= targetOf Literal.target
  | .literal .next => Literal.next? t m.delimiter s >>= targetOf Literal.target
  | .literal .previous => Literal.previous? t m.delimiter s >>= targetOf Literal.target
  | .call .here => selectSpan (Call.around? t s)
  | .call .first => selectSpan (.ok (Call.first? t s))
  | .call .next => selectSpan (.ok (Call.next? t s))
  | .call .previous => selectSpan (.ok (Call.previous? t s))
  | .argument .here => Argument.around? t s
  | .argument .first => Argument.first t s
  | .argument .next => Argument.next t s
  | .argument .previous => Argument.previous t s
  | .brackets .here => selectSpan (Bracket.around? t s)
  | .brackets .first => selectSpan (.ok (Bracket.first? t s))
  | .brackets .next => selectSpan (.ok (Bracket.next? t s))
  | .brackets .previous => selectSpan (.ok (Bracket.previous? t s))
  | .indentedBlock => Block.indented? t s
  | .bracedBlock => selectSpan (Block.braced? t s)
  | .sentence k .here => some <$> Sentence.around k t s
  | .sentence k .next => Sentence.next? k t s
  | .sentence k .previous => Sentence.previous? k t s
  | .link => selectSpan (Markdown.link? t s)
  | .sectionEnd => selectSpan (.ok (some (.point (Markdown.sectionEnd t s))))
  | .line withBreak => selectSpan (some <$> Line.around t withBreak s)
  | .lineStart => selectSpan (.ok (some (.point (Line.startOf t s))))
  | .lineEnd => selectSpan (.ok (some (.point (Line.stopOf t s))))
  | .betweenWhitespace => some <$> Line.betweenWhitespace t s

/-- One step: what the modifier finds, or else its target as it was, unless it must
find something. -/
def step (m : Modifier) (env : Setting) (t : Text) (target : Target) : Except Error Target :=
  match m.find env t target.span with
  | .error e => .error (.span e)
  | .ok (some found) => .ok found
  | .ok none => if m.kind.mustFind then .error (.noMatch m.kind) else .ok target

def checkWithin (target : Target) (length : Nat) : Except Error Unit :=
  (target.checkWithin length).mapError .span

/-- `n` steps, each of which must end in the text. -/
def steps (m : Modifier) (env : Setting) (t : Text) : Nat → Target → Except Error Target
  | 0, target => return target
  | n + 1, target => do
    let found ← m.step env t target
    checkWithin found t.length
    m.steps env t n found

/-- The target a modifier makes of another. -/
def apply (m : Modifier) (env : Setting) (t : Text) (target : Target) : Except Error Target := do
  if m.repetitions = 0 then throw (.badRepetitions 0)
  checkWithin target t.length
  if t = [] then return target
  m.steps env t m.repetitions target

/-- The modifiers in turn, each applied to what the one before made. -/
def applyAll (env : Setting) (t : Text) : List Modifier → Target → Except Error Target
  | [], target => return target
  | m :: rest, target => do
    let found ← m.apply env t target
    applyAll env t rest found

/-! ## Laws -/

theorem steps_succ (m : Modifier) (env : Setting) (t : Text) (n : Nat) (target : Target) :
    m.steps env t (n + 1) target = (do
      let found ← m.step env t target
      checkWithin found t.length
      m.steps env t n found) := rfl

end Modifier

end VoiceEdit
