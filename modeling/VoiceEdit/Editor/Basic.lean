import VoiceEdit.Editor.Edit

/-!
# The editor

A text with a selection, as a host holds it. `perform` carries out one edit; `performAll`
carries out a list and stops at the first edit that fails, keeping what was done before.

Results:

* `performAll_append`: a list of edits that all succeed can be performed in two parts.
-/
namespace VoiceEdit

/-- The mode the editor is in: none of its own, selecting, or typing. -/
inductive Mode where
  | normal
  | visual
  | insert
deriving DecidableEq, Repr

/-- What a host holds. With `keysOnly` it can press keys and nothing else; `offset` is
where an excerpt starts in its document. -/
structure Editor where
  text : Text
  selection : Span
  keysOnly : Bool := false
  offset : Option Nat := none
  mode : Mode := .normal
deriving DecidableEq, Repr

namespace Editor

inductive Error where
  | invalidSelection (start stop length : Nat)
  | span (e : Span.Error)
deriving DecidableEq, Repr

def Error.message : Error → String
  | .invalidSelection start stop length =>
    s!"selection {start}..{stop} is outside a text of {length} chars"
  | .span e => e.message

/-- The text of the selection. -/
def selectedText (e : Editor) : Except Span.Error Text := e.text.extract e.selection

/-- A span of the text in terms of the document. -/
def absolute (e : Editor) (s : Span) : Except Span.Error Span :=
  match e.offset with
  | some offset => do s.shift (← Edit.distance offset)
  | none => return s

/-- Refuses a selection that ends beyond the text. -/
def checkSelection (e : Editor) (s : Span) : Except Error Unit :=
  if e.text.length < s.stop then .error (.invalidSelection s.start s.stop e.text.length) else .ok ()

/-- Makes `s` the selection; only one with characters in it changes the mode. -/
def select (e : Editor) (s : Span) : Editor :=
  { e with selection := s, mode := if s.isEmpty then e.mode else .visual }

/-- Puts the cursor at `pos`; the mode stays. -/
def moveTo (e : Editor) (pos : Nat) : Editor := { e with selection := .point pos }

/-- Types `text` over the selection. -/
def type (e : Editor) (text : Text) : Editor :=
  { e with
    text := e.text.replace e.selection text
    selection := .point (e.selection.start + text.length)
    mode := .insert }

/-- Removes the characters of `s`. -/
def remove (e : Editor) (s : Span) : Except Span.Error Editor := do
  s.checkWithin e.text.length
  return { e with text := e.text.replace s [], selection := .point s.start, mode := .insert }

/-- Carries out one edit. -/
def perform (e : Editor) : Edit → Except Error Editor
  | .select s => do
    e.checkSelection s
    return e.select s
  | .insert text => do
    e.checkSelection e.selection
    return e.type text
  | .delete s => (e.remove s).mapError .span
  | .setClipboard _ _ => return e

/-- What the clipboard holds after an edit, `clip` being what it held. -/
def clipboardAfter (clip : Option Text) : Edit → Option Text
  | .setClipboard _ text => some text
  | _ => clip

/-- Carries out edits in order and answers what the clipboard ends up with. After a
failure the editor is as the edits before it left it. -/
def performAll (e : Editor) (clip : Option Text) : List Edit → Editor × Except Error (Option Text)
  | [] => (e, .ok clip)
  | edit :: rest =>
    match e.perform edit with
    | .error err => (e, .error err)
    | .ok next => next.performAll (clipboardAfter clip edit) rest

/-- Carries out edits, on a clipboard that holds nothing. -/
def run (e : Editor) (edits : List Edit) : Editor × Except Error (Option Text) :=
  e.performAll none edits

/-! ## Laws -/

theorem checkSelection_eq_ok_iff {e : Editor} {s : Span} :
    e.checkSelection s = .ok () ↔ s.stop ≤ e.text.length := by
  unfold checkSelection; split <;> simp <;> omega

/-- A list of edits that all succeed can be performed in two parts. -/
theorem performAll_append {e e' : Editor} {clip clip' : Option Text} {as bs : List Edit}
    (h : e.performAll clip as = (e', .ok clip')) :
    e.performAll clip (as ++ bs) = e'.performAll clip' bs := by
  induction as generalizing e clip with
  | nil => simp only [performAll, Prod.mk.injEq, Except.ok.injEq] at h; simp [h.1, h.2]
  | cons a as ih =>
    simp only [performAll, List.cons_append] at h ⊢
    cases ha : e.perform a with
    | error err => simp [ha] at h
    | ok next => rw [ha] at h; exact ih h

end Editor

end VoiceEdit
