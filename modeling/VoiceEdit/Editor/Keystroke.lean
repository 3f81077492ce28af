import VoiceEdit.Editor.Basic
import VoiceEdit.Text.CharClass

/-!
# Keystrokes

The keys of a host that can press keys and nothing else, and what each does to its
editor.

Results:

* `target_le_length`: an arrow key leads to a position in the text.
-/
namespace VoiceEdit

/-- A key that moves the cursor. -/
inductive Arrow where
  | left
  | right
  | up
  | down
  | wordLeft
  | wordRight
  | lineStart
  | lineEnd
deriving DecidableEq, Repr

/-- A key, or a text handed to the host. -/
inductive Keystroke where
  | go (a : Arrow)
  /-- Grows the selection by one character to the right. -/
  | extendRight
  /-- Deletes the selection, or else the character before the cursor. -/
  | clear
  | insert (text : Text)
  | setClipboard (history : Bool) (text : Text)
deriving DecidableEq, Repr

namespace Arrow

/-- The position in the line above `i`, as far in as that line goes. -/
def lineAbove (t : Text) (i : Nat) : Nat :=
  let start := t.lineStart i
  if start = 0 then i else min (t.lineStart (start - 1) + (i - start)) (start - 1)

/-- The position in the line below `i`, as far in as that line goes. -/
def lineBelow (t : Text) (i : Nat) : Nat :=
  let stop := t.lineEnd i
  if t.length ≤ stop then i
  else min (stop + 1 + (i - t.lineStart i)) (t.lineEnd (stop + 1))

/-- Where the cursor goes; a selection gives way at the edge it goes towards. -/
def target (t : Text) (s : Span) : Arrow → Nat
  | left => if s.isEmpty then s.start - 1 else s.start
  | right => if s.isEmpty then min (s.stop + 1) t.length else s.stop
  | up => lineAbove t s.start
  | down => lineBelow t s.start
  | wordLeft =>
    let pos := s.start - t.runBefore (!isWord ·) s.start
    pos - t.runBefore isWord pos
  | wordRight =>
    let pos := s.stop + t.runAfter (!isWord ·) s.stop
    pos + t.runAfter isWord pos
  | lineStart => t.lineStart s.start
  | lineEnd => t.lineEnd s.stop

end Arrow

namespace Editor

/-- Presses one key. -/
def press (e : Editor) : Keystroke → Except Error Editor
  | .go a => return e.moveTo (a.target e.text e.selection)
  | .extendRight => do
    let s ← (Span.ofBounds e.selection.start (min (e.selection.stop + 1) e.text.length)).mapError .span
    return e.select s
  | .clear =>
    if !e.selection.isEmpty then (e.remove e.selection).mapError .span
    else if 0 < e.selection.start then do
      let s ← (Span.ofBounds (e.selection.start - 1) e.selection.start).mapError .span
      (e.remove s).mapError .span
    else return e
  | .insert text => return e.type text
  | .setClipboard _ _ => return e

/-- What the clipboard holds after a key, `clip` being what it held. -/
def clipboardAfterKey (clip : Option Text) : Keystroke → Option Text
  | .setClipboard _ text => some text
  | _ => clip

/-- Presses keys in order and answers what the clipboard ends up with. -/
def pressAll (e : Editor) (clip : Option Text) :
    List Keystroke → Editor × Except Error (Option Text)
  | [] => (e, .ok clip)
  | key :: rest =>
    match e.press key with
    | .error err => (e, .error err)
    | .ok next => next.pressAll (clipboardAfterKey clip key) rest

/-- Presses keys, on a clipboard that holds nothing, if the selection lies in the text. -/
def runKeys (e : Editor) (keys : List Keystroke) : Editor × Except Error (Option Text) :=
  match e.checkSelection e.selection with
  | .error err => (e, .error err)
  | .ok () => e.pressAll none keys

end Editor

/-! ## Laws -/

/-- An arrow key leads to a position in the text. -/
theorem Arrow.target_le_length (t : Text) (s : Span) (a : Arrow) (h : s.stop ≤ t.length) :
    a.target t s ≤ t.length := by
  have hs := s.start_le_stop
  cases a with
  | left => simp only [target]; split <;> omega
  | right => simp only [target]; split <;> omega
  | up =>
    simp only [target, lineAbove]
    have := t.lineStart_le s.start
    split <;> omega
  | down =>
    simp only [target, lineBelow]
    split
    · omega
    · have := t.lineEnd_le_length (t.lineEnd s.start + 1)
      omega
  | wordLeft => simp only [target]; omega
  | wordRight => exact t.add_runAfter_le _ (t.add_runAfter_le _ h)
  | lineStart => exact Nat.le_trans (t.lineStart_le _) (by omega)
  | lineEnd => exact t.lineEnd_le_length _

end VoiceEdit
