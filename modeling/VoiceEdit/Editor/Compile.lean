import VoiceEdit.Editor.Keystroke
import VoiceEdit.Settings

/-!
# From edits to keystrokes

Spells edits out for a host that can press keys and nothing else. The editor that the
keystrokes lead to is followed along, so each edit is checked as it would be performed.

Results:

* `length_arrowRun`: an arrow run has one key for each character between its ends.
-/
namespace VoiceEdit

namespace Keystroke

/-- The arrow keys from one position to another. -/
def arrowRun (origin target : Nat) : List Keystroke :=
  if target < origin then List.replicate (origin - target) (.go .left)
  else List.replicate (target - origin) (.go .right)

/-- The keys that give the selection up, and where they leave the cursor. -/
def collapse (side : CollapseSide) (s : Span) : List Keystroke × Nat :=
  if s.isEmpty then ([], s.start)
  else match side with
    | .left => ([.go .left], s.start)
    | .right => ([.go .right], s.stop)

/-- The keys that lead from the selection to a cursor at `target`. -/
def moveTo (side : CollapseSide) (s : Span) (target : Nat) : List Keystroke :=
  let (keys, pos) := collapse side s
  keys ++ arrowRun pos target

/-- The keys for one edit, and the editor they lead to. -/
def ofEdit (side : CollapseSide) (e : Editor) (edit : Edit) :
    Except Editor.Error (List Keystroke × Editor) := do
  let next ← e.perform edit
  match edit with
  | .select s =>
    if s = e.selection then return ([], e)
    return (moveTo side e.selection s.start ++ List.replicate s.length .extendRight, next)
  | .delete s =>
    if s.isEmpty then return (moveTo side e.selection s.start, next)
    else if s = e.selection then return ([.clear], next)
    else return (moveTo side e.selection s.stop ++ List.replicate s.length .clear, next)
  | .insert text => return ([.insert text], next)
  | .setClipboard history text => return ([.setClipboard history text], next)

/-- The keys for edits in order. -/
def ofEditsFrom (side : CollapseSide) (e : Editor) : List Edit → Except Editor.Error (List Keystroke)
  | [] => return []
  | edit :: rest => do
    let (keys, next) ← ofEdit side e edit
    return keys ++ (← ofEditsFrom side next rest)

/-- The keys that do to a text and its selection what the edits do. -/
def ofEdits (side : CollapseSide) (text : Text) (selection : Span) (edits : List Edit) :
    Except Editor.Error (List Keystroke) := do
  let e : Editor := { text, selection }
  e.checkSelection selection
  ofEditsFrom side e edits

/-! ## Laws -/

/-- An arrow run has one key for each character between its ends. -/
theorem length_arrowRun (origin target : Nat) :
    (arrowRun origin target).length = (origin - target) + (target - origin) := by
  unfold arrowRun; split <;> simp <;> omega

end Keystroke

namespace Editor

/-- Carries out edits in the way the host can: by keystrokes when it has nothing else.
Keystrokes follow the default settings, and where edits cannot be spelt out none is
pressed. -/
def apply (e : Editor) (edits : List Edit) : Editor × Except Error (Option Text) :=
  if !e.keysOnly then e.run edits
  else match Keystroke.ofEdits Settings.default.collapse e.text e.selection edits with
    | .error err => (e, .error err)
    | .ok keys => e.runKeys keys

end Editor

end VoiceEdit
