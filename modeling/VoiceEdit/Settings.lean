import VoiceEdit.Text.Basic

/-!
# Settings

What a user may configure: how comments are marked, which words a title leaves small,
and where the cursor goes when arrow keys have to give a selection up.

Results:

* `mem_markersByLength`: sorting the line markers drops the empty ones only.
-/
namespace VoiceEdit

/-- What begins and what ends a block comment. -/
structure BlockMarker where
  start : Text
  stop : Text
deriving DecidableEq, Repr

/-- The edge of a selection the cursor lands on when it is given up. -/
inductive CollapseSide where
  | left
  | right
deriving DecidableEq, Repr

structure Settings where
  lineMarkers : List Text
  blockMarkers : List BlockMarker
  minorWords : List Text
  collapse : CollapseSide
deriving DecidableEq, Repr

namespace Settings

/-- The settings where nothing is configured. -/
def default : Settings where
  lineMarkers := ["//".toList, "#".toList]
  blockMarkers := [⟨"/*".toList, "*/".toList⟩]
  minorWords :=
    ["a", "an", "and", "as", "at", "but", "by", "for", "in", "nor", "of", "on", "or", "so", "the",
      "to", "up", "yet"].map String.toList
  collapse := .left

instance : Inhabited Settings := ⟨default⟩

/-- The line markers, longest first, so that the longest that fits is taken. -/
def markersByLength (s : Settings) : List Text :=
  (s.lineMarkers.filter (!·.isEmpty)).mergeSort fun a b => decide (b.length ≤ a.length)

theorem mem_markersByLength {s : Settings} {m : Text} :
    m ∈ s.markersByLength ↔ m ∈ s.lineMarkers ∧ m ≠ [] := by
  simp [markersByLength, List.mem_mergeSort]

end Settings

end VoiceEdit
