import VoiceEdit.Text.Basic

/-!
# Edits

The primitive actions a host performs in order. `shift` moves them, for a host that ran
a command on an excerpt of its document.
-/
namespace VoiceEdit

/-- A primitive action of an editor. -/
inductive Edit where
  /-- Makes `span` the selection. -/
  | select (span : Span)
  /-- Replaces the selection; the cursor ends behind the new text. -/
  | insert (text : Text)
  /-- Copies `text`, into the history of the clipboard or past it. -/
  | setClipboard (history : Bool) (text : Text)
  | delete (span : Span)
deriving DecidableEq, Repr

namespace Edit

/-- The span an edit acts on. -/
def span? : Edit → Option Span
  | .select s | .delete s => some s
  | .insert _ | .setClipboard _ _ => none

/-- The text an edit carries. -/
def text : Edit → Text
  | .insert text | .setClipboard _ text => text
  | .select _ | .delete _ => []

/-- A distance to move spans by, refused when no signed 64-bit integer holds it. -/
def distance (offset : Nat) : Except Span.Error Int :=
  if (offset : Int) = Span.reported offset then .ok offset
  else .error (.invalid (Span.reported offset) (Span.reported offset))

/-- The edit on a document in which the text starts at `offset`. -/
def shift (offset : Nat) (e : Edit) : Except Span.Error Edit := do
  let delta ← distance offset
  match e with
  | .select s => .select <$> s.shift delta
  | .delete s => .delete <$> s.shift delta
  | e => return e

end Edit

end VoiceEdit
