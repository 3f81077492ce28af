import VoiceEdit.Command.Basic
import VoiceEdit.Text.Casing

/-!
# Running commands

The edits that carry a command out: `resolve` follows its modifiers from the selection
to a target, `perform` turns the target into edits.

Results:

* `run_eq`: running a command is resolving it and performing it on what it resolves to.
-/
namespace VoiceEdit.Command

/-- What commands need from outside: settings, homophones, and the host's own
replacement for the text of a target, if it has one. -/
structure Host where
  env : Modifier.Setting
  lambda? : Option (Text → Text) := none

/-- Selects `s`, types over it, and puts the selection back where it belongs. -/
def replaceEdits (selection s : Span) (new : Text) : Except Error (List Edit) := do
  let adjusted ← (adjustSelection selection s new.length).mapError .span
  let back := if adjusted = .point (s.start + new.length) then [] else [.select adjusted]
  return [.select s, .insert new] ++ back

/-- Deletes `s` and puts the selection back where it belongs. -/
def clearEdits (selection s : Span) : Except Error (List Edit) := do
  if s.isEmpty then return []
  let adjusted ← (adjustSelection selection s 0).mapError .span
  let back := if adjusted = .point s.start then [] else [.select adjusted]
  return .delete s :: back

/-- The edits of a command on a target. -/
def perform (c : Command) (host : Host) (t : Text) (selection : Span) (target : Target) :
    Except Error (List Edit) := do
  let s := target.span
  let matched ← (t.extract s).mapError .span
  let inserted := c.insertText.getD []
  match c.kind with
  | .select => return [.select s]
  | .moveCursorBefore => return [.select (.point s.start)]
  | .moveCursorAfter => return [.select (.point s.stop)]
  | .clearMoveCursor => return .select s :: if s.isEmpty then [] else [.delete s]
  | .clearNoMove => clearEdits selection target.removed
  | .copyToClipboard => return [.setClipboard true matched]
  | .cutToClipboard => return .setClipboard true matched :: (← clearEdits selection target.removed)
  | .bring => return (if selection.isEmpty then [] else [.delete selection]) ++ [.insert matched]
  | .replace => replaceEdits selection s inserted
  | .replaceWithLambda =>
    match host.lambda? with
    | none => throw .lambdaRequired
    | some f => replaceEdits selection s (f matched)
  | .replaceWordMatchCase =>
    replaceEdits selection s ((Capitalization.guess matched).apply inserted)
  | .nextHomophone =>
    match host.env.lookup.next? matched.lowercase with
    | none => return []
    | some word => replaceEdits selection s ((Capitalization.guess matched).apply word)
  | .titleCase => replaceEdits selection s (matched.titleCase host.env.settings.minorWords)
  | .lowercase => replaceEdits selection s matched.lowerChars
  | .uppercase => replaceEdits selection s matched.upperChars

/-- The target that the modifiers of a command lead to from the selection. -/
def resolve (c : Command) (env : Modifier.Setting) (t : Text) (selection : Span) :
    Except Error Target := do
  let target ← (Modifier.applyAll env t c.modifiers (.ofSpan selection)).mapError .modifier
  if c.extendModifiers.isEmpty then return target
  let other ← (Modifier.applyAll env t c.extendModifiers target).mapError .modifier
  let span ← (c.reach.combine target.span other.span).mapError .span
  return .ofSpan span

/-- The edits that carry a command out on a text and its selection. -/
def run (c : Command) (host : Host) (t : Text) (selection : Span) : Except Error (List Edit) := do
  (selection.checkWithin t.length).mapError .span
  let target ← c.resolve host.env t selection
  c.perform host t selection target

/-! ## Laws -/

/-- Running a command is resolving it and performing it on what it resolves to. -/
theorem run_eq {c : Command} {host : Host} {t : Text} {selection : Span} {target : Target}
    (hs : selection.stop ≤ t.length) (h : c.resolve host.env t selection = .ok target) :
    c.run host t selection = c.perform host t selection target := by
  have hw := Span.checkWithin_eq_ok_iff.2 hs
  rw [run, hw]
  show (c.resolve host.env t selection >>= c.perform host t selection) = _
  rw [h]
  rfl

end VoiceEdit.Command
