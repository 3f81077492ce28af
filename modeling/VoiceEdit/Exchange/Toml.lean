import VoiceEdit.Exchange.Settings
import VoiceEdit.Toml.Reader
import VoiceEdit.Word.Homophones

/-!
# Settings and homophones in TOML

Users write both by hand. Every key may be left out, and a key that is not known is
refused.

Results:

* `settingsOfToml?_empty`: an empty document is the default settings.
-/
namespace VoiceEdit.Exchange

open Toml (Value)

def tomlText? : Value → Option Text
  | .text t => some t
  | _ => none

def tomlList? {α : Type} (read : Value → Option α) : Value → Option (List α)
  | .list items => items.mapM read
  | _ => none

/-- A choice: its name, or a table of that name and nothing. -/
def tomlChoice? {α : Type} (find? : String → Option α) : Value → Option α
  | .text name => find? (String.ofList name)
  | .table [(name, .table [])] | .table [(name, .list [])] => find? (String.ofList name)
  | _ => none

/-- What begins and ends a block comment: a table, or a list of the two. -/
def tomlBlockMarker? : Value → Option BlockMarker
  | .table fields => do
    let start ← fields.lookup "start".toList
    let stop ← fields.lookup "end".toList
    return { start := (← tomlText? start), stop := (← tomlText? stop) }
  | .list (start :: stop :: _) => do
    return { start := (← tomlText? start), stop := (← tomlText? stop) }
  | _ => none

/-- A field of a document, `missing` where it is not there. -/
def tomlField? {α : Type} (fields : List (Text × Value)) (name : String)
    (read : Value → Option α) (missing : α) : Option α :=
  match fields.lookup name.toList with
  | some v => read v
  | none => some missing

def tomlKnown (names : List String) (fields : List (Text × Value)) : Bool :=
  fields.all fun f => names.contains (String.ofList f.1)

/-- The settings that a document gives. -/
def settingsOfToml? (document : Text) : Option Settings := do
  let fields ← Toml.parse? document
  if !tomlKnown settingsNames fields then none
  let d := Settings.default
  return {
    lineMarkers := (← tomlField? fields "comment-tokens" (tomlList? tomlText?) d.lineMarkers)
    blockMarkers :=
      (← tomlField? fields "block-comment-tokens" (tomlList? tomlBlockMarker?) d.blockMarkers)
    minorWords := (← tomlField? fields "title-case-minor-words" (tomlList? tomlText?) d.minorWords)
    collapse := (← tomlField? fields "potato-collapse" (tomlChoice? sideOfCode?) d.collapse) }

/-- The homophones that a document gives: a list of groups under `groups`. -/
def homophonesOfToml? (document : Text) : Option Homophones := do
  let fields ← Toml.parse? document
  if !tomlKnown ["groups"] fields then none
  return .ofGroups (← tomlField? fields "groups" (tomlList? (tomlList? tomlText?)) [])

/-- An empty document is the default settings. -/
theorem settingsOfToml?_empty : settingsOfToml? [] = some Settings.default := rfl

end VoiceEdit.Exchange
