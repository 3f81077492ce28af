import VoiceEdit.Editor.Edit
import VoiceEdit.Modifier.Basic

/-!
# Commands

A command says what to do to a target and which modifiers lead to it. `adjustSelection`
says where a selection ends up when text elsewhere is replaced.

Results:

* `ofCode?_code`: a kind of command is found by the name it is exchanged by.
* `adjustSelection_of_intersects`: a selection that the edit cuts into becomes a cursor behind it.
-/
namespace VoiceEdit

/-- What a command does to its target. -/
inductive Command.Kind where
  | select
  | clearMoveCursor
  | clearNoMove
  | moveCursorBefore
  | moveCursorAfter
  | cutToClipboard
  | copyToClipboard
  | bring
  | replace
  | replaceWordMatchCase
  | nextHomophone
  | titleCase
  | lowercase
  | uppercase
  | replaceWithLambda
deriving DecidableEq, Repr

namespace Command.Kind

/-- The name a kind is exchanged by. -/
def code : Kind → String
  | .select => "SELECT"
  | .clearMoveCursor => "CLEAR_MOVE_CURSOR"
  | .clearNoMove => "CLEAR_NO_MOVE"
  | .moveCursorBefore => "MOVE_CURSOR_BEFORE"
  | .moveCursorAfter => "MOVE_CURSOR_AFTER"
  | .cutToClipboard => "CUT_TO_CLIPBOARD"
  | .copyToClipboard => "COPY_TO_CLIPBOARD"
  | .bring => "BRING"
  | .replace => "REPLACE"
  | .replaceWordMatchCase => "REPLACE_WORD_MATCH_CASE"
  | .nextHomophone => "NEXT_HOMOPHONE"
  | .titleCase => "TITLE_CASE"
  | .lowercase => "LOWERCASE"
  | .uppercase => "UPPERCASE"
  | .replaceWithLambda => "REPLACE_WITH_LAMBDA"

/-- Every kind. -/
def all : List Kind :=
  [.select, .clearMoveCursor, .clearNoMove, .moveCursorBefore, .moveCursorAfter, .cutToClipboard,
    .copyToClipboard, .bring, .replace, .replaceWordMatchCase, .nextHomophone, .titleCase,
    .lowercase, .uppercase, .replaceWithLambda]

/-- The kind that is exchanged by this name. -/
def ofCode? (s : String) : Option Kind := all.find? (·.code == s)

theorem mem_all (k : Kind) : k ∈ all := by cases k <;> decide

theorem ofCode?_code (k : Kind) : ofCode? k.code = some k := by
  revert k
  have : ∀ k ∈ all, ofCode? k.code = some k := by decide +kernel
  exact fun k => this k (mem_all k)

end Command.Kind

/-- How far a command with a second target reaches. -/
inductive Reach where
  | including
  | excluding
deriving DecidableEq, Repr

namespace Reach

def code : Reach → String
  | .including => "UP_TO_AND_INCLUDING"
  | .excluding => "UP_TO_BUT_EXCLUDING"

def ofCode? : String → Option Reach
  | "UP_TO_AND_INCLUDING" => some .including
  | "UP_TO_BUT_EXCLUDING" => some .excluding
  | _ => none

theorem ofCode?_code (r : Reach) : ofCode? r.code = some r := by cases r <;> rfl

/-- The span from one target to another, which may lie on either side. -/
def combine (r : Reach) (a b : Span) : Except Span.Error Span :=
  if a.start ≤ b.start then
    match r with
    | .including => Span.spanning a.start b.stop
    | .excluding => Span.spanning a.start b.start
  else
    match r with
    | .including => Span.spanning b.start a.stop
    | .excluding => Span.spanning b.stop a.stop

end Reach

/-- A command as it is asked for. With `extendModifiers` it reaches from the target of
`modifiers` to the one that these lead on to. -/
structure Command where
  kind : Command.Kind
  modifiers : List Modifier := []
  extendModifiers : List Modifier := []
  reach : Reach := .including
  insertText : Option Text := none
deriving DecidableEq, Repr

namespace Command

inductive Error where
  | lambdaRequired
  | modifier (e : Modifier.Error)
  | span (e : Span.Error)
deriving DecidableEq, Repr

def Error.message : Error → String
  | .lambdaRequired => "REPLACE_WITH_LAMBDA needs a lambda"
  | .modifier e => e.message
  | .span e => e.message

/-- Where a selection ends up when `edit` is replaced by `length` characters. -/
def adjustSelection (selection edit : Span) (length : Nat) : Except Span.Error Span :=
  if edit.intersects selection then .ok (.point (edit.start + length))
  else if edit.stop ≤ selection.start then selection.shift (length - edit.length)
  else .ok selection

/-! ## Laws -/

/-- A selection that the edit cuts into becomes a cursor behind it. -/
theorem adjustSelection_of_intersects {selection edit : Span} (h : edit.intersects selection = true)
    (length : Nat) : adjustSelection selection edit length = .ok (.point (edit.start + length)) := by
  simp [adjustSelection, h]

end Command

end VoiceEdit
