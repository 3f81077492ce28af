import VoiceEdit.Exchange.Record
import VoiceEdit.Settings

/-!
# Settings in JSON

Every setting may be left out, and a setting that is not known is refused.

Results:

* `settingsOf_ofSettings`: what was written is read back.
-/
namespace VoiceEdit.Exchange

def blockMarkerNames : List String := ["start", "end"]

def ofBlockMarker (m : BlockMarker) : Json :=
  .obj [("start", ofText m.start), ("end", ofText m.stop)]

def blockMarkerOf (j : Json) : Result BlockMarker := do
  let fields ← fieldsOf blockMarkerNames j
  let start ← required fields "start" asText
  let stop ← required fields "end" asText
  checkSurplus blockMarkerNames j
  return { start, stop }

def sideCode : CollapseSide → String
  | .left => "left"
  | .right => "right"

def sideOfCode? : String → Option CollapseSide
  | "left" => some .left
  | "right" => some .right
  | _ => none

def settingsNames : List String :=
  ["comment-tokens", "block-comment-tokens", "title-case-minor-words", "potato-collapse"]

def ofSettings (s : Settings) : Json :=
  .obj [("comment-tokens", .arr (s.lineMarkers.map ofText)),
    ("block-comment-tokens", .arr (s.blockMarkers.map ofBlockMarker)),
    ("title-case-minor-words", .arr (s.minorWords.map ofText)),
    ("potato-collapse", .str (sideCode s.collapse))]

def settingsOf (j : Json) : Result Settings := do
  let fields ← fieldsOf settingsNames j
  checkKnown settingsNames fields
  let d := Settings.default
  let lineMarkers ← optional fields "comment-tokens" (asList asText) d.lineMarkers
  let blockMarkers ← optional fields "block-comment-tokens" (asList blockMarkerOf) d.blockMarkers
  let minorWords ← optional fields "title-case-minor-words" (asList asText) d.minorWords
  let collapse ← optional fields "potato-collapse" (asChoice sideOfCode?) d.collapse
  checkSurplus settingsNames j
  return { lineMarkers, blockMarkers, minorWords, collapse }

/-! ## Laws -/

theorem blockMarkerOf_ofBlockMarker (m : BlockMarker) :
    blockMarkerOf (ofBlockMarker m) = .ok m := by
  simp [blockMarkerOf, ofBlockMarker, fieldsOf, required, checkSurplus, bind, Except.bind, pure,
    Except.pure, List.lookup_cons]

theorem asChoice_sideCode (s : CollapseSide) :
    asChoice sideOfCode? (.str (sideCode s)) = .ok s := by cases s <;> rfl

theorem settingsOf_ofSettings (s : Settings) : settingsOf (ofSettings s) = .ok s := by
  simp [settingsOf, ofSettings, fieldsOf, checkKnown, settingsNames, optional, checkSurplus,
    asList_map asText_ofText, asList_map blockMarkerOf_ofBlockMarker, asChoice_sideCode, bind,
    Except.bind, pure, Except.pure, List.lookup_cons]

end VoiceEdit.Exchange
