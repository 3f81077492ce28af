import VoiceEdit.Editor.Keystroke
import VoiceEdit.Exchange.Span

/-!
# Edits, keystrokes and modes in JSON

An edit and a keystroke are records that begin with their `action_type`: an object that
has it among its fields, or an array whose first item it is. A mode is one letter.

Results:

* `editOf_ofEdit`, `keystrokeOf_ofKeystroke`, `modeOf_ofMode`: what was written is read back.
-/
namespace VoiceEdit.Exchange

/-! ## Tagged records -/

def tagName : String := "action_type"

/-- The tag of a record, and the record without it. -/
def tagged : Json → Result (String × Json)
  | .obj fields =>
    match fields.lookup tagName with
    | some (.str tag) => .ok (tag, .obj (fields.filter (·.1 != tagName)))
    | _ => .error .shape
  | .arr (.str tag :: items) => .ok (tag, .arr items)
  | _ => .error .shape

/-- A record of one field. -/
def single {α : Type} (name : String) (read : Json → Result α) (j : Json) : Result α := do
  let fields ← fieldsOf [name] j
  let a ← required fields name read
  checkSurplus [name] j
  return a

/-- A record of no field. -/
def nothing (j : Json) : Result Unit := do
  let _ ← fieldsOf [] j
  checkSurplus [] j

def ofTagged (tag : String) (fields : List (String × Json)) : Json :=
  .obj ((tagName, .str tag) :: fields)

/-! ## Edits -/

def clipboardTag (history : Bool) : String :=
  if history then "SET_CLIPBOARD_WITH_HISTORY" else "SET_CLIPBOARD_NO_HISTORY"

def ofEdit : Edit → Json
  | .select s => ofTagged "SET_SELECTION_RANGE" [("text_range", ofSpan s)]
  | .insert text => ofTagged "INSERT_TEXT" [("text", ofText text)]
  | .setClipboard history text => ofTagged (clipboardTag history) [("text", ofText text)]
  | .delete s => ofTagged "DELETE_RANGE" [("text_range", ofSpan s)]

def editOf (j : Json) : Result Edit := do
  let (tag, body) ← tagged j
  if tag = "SET_SELECTION_RANGE" then .select <$> single "text_range" spanOf body
  else if tag = "INSERT_TEXT" then .insert <$> single "text" asText body
  else if tag = clipboardTag true then .setClipboard true <$> single "text" asText body
  else if tag = clipboardTag false then .setClipboard false <$> single "text" asText body
  else if tag = "DELETE_RANGE" then .delete <$> single "text_range" spanOf body
  else .error .shape

/-! ## Keystrokes -/

def arrowTag : Arrow → String
  | .left => "GO_LEFT"
  | .right => "GO_RIGHT"
  | .up => "GO_UP"
  | .down => "GO_DOWN"
  | .wordLeft => "GO_WORD_LEFT"
  | .wordRight => "GO_WORD_RIGHT"
  | .lineStart => "GO_LINE_START"
  | .lineEnd => "GO_LINE_END"

def arrows : List Arrow :=
  [.left, .right, .up, .down, .wordLeft, .wordRight, .lineStart, .lineEnd]

def ofKeystroke : Keystroke → Json
  | .go a => ofTagged (arrowTag a) []
  | .extendRight => ofTagged "EXTEND_RIGHT" []
  | .clear => ofTagged "CLEAR" []
  | .insert text => ofTagged "INSERT_TEXT" [("text", ofText text)]
  | .setClipboard history text => ofTagged (clipboardTag history) [("text", ofText text)]

def keystrokeOf (j : Json) : Result Keystroke := do
  let (tag, body) ← tagged j
  match arrows.find? (arrowTag · == tag) with
  | some a => (fun _ => .go a) <$> nothing body
  | none =>
    if tag = "EXTEND_RIGHT" then (fun _ => .extendRight) <$> nothing body
    else if tag = "CLEAR" then (fun _ => .clear) <$> nothing body
    else if tag = "INSERT_TEXT" then .insert <$> single "text" asText body
    else if tag = clipboardTag true then .setClipboard true <$> single "text" asText body
    else if tag = clipboardTag false then .setClipboard false <$> single "text" asText body
    else .error .shape

/-! ## Modes -/

def modeCode : Mode → String
  | .normal => "n"
  | .visual => "v"
  | .insert => "i"

def modeOfCode? : String → Option Mode
  | "n" => some .normal
  | "v" => some .visual
  | "i" => some .insert
  | _ => none

def ofMode (m : Mode) : Json := .str (modeCode m)

def modeOf : Json → Result Mode := asChoice modeOfCode?

/-! ## Laws -/

theorem modeOf_ofMode (m : Mode) : modeOf (ofMode m) = .ok m := by cases m <;> rfl

theorem tagged_ofTagged {tag : String} {fields : List (String × Json)}
    (h : ∀ f ∈ fields, f.1 ≠ tagName) : tagged (ofTagged tag fields) = .ok (tag, .obj fields) := by
  have : fields.filter (·.1 != tagName) = fields :=
    List.filter_eq_self.2 fun f hf => by simpa using h f hf
  simp [tagged, ofTagged, this]

theorem single_obj {α : Type} (name : String) {read : Json → Result α} {j : Json} {a : α}
    (h : read j = .ok a) : single name read (.obj [(name, j)]) = .ok a := by
  simp [single, fieldsOf, required, checkSurplus, h, bind, Except.bind, pure, Except.pure]

theorem tagged_single {tag : String} (name : String) {j : Json} (h : name ≠ tagName) :
    tagged (ofTagged tag [(name, j)]) = .ok (tag, .obj [(name, j)]) :=
  tagged_ofTagged (by simpa using h)

/-- An edit whose span lies within the limit is read back. -/
theorem editOf_ofEdit {e : Edit} (h : ∀ s ∈ e.span?, s.stop ≤ Span.limit) :
    editOf (ofEdit e) = .ok e := by
  cases e with
  | select s =>
    have h₁ := single_obj "text_range" (spanOf_ofSpan (h s rfl))
    simp [editOf, ofEdit, tagged_single "text_range" (by decide), h₁, bind, Except.bind,
      Functor.map, Except.map]
  | insert text =>
    have h₁ := single_obj "text" (asText_ofText text)
    simp [editOf, ofEdit, tagged_single "text" (by decide), h₁, bind, Except.bind,
      Functor.map, Except.map]
  | setClipboard history text =>
    have h₁ := single_obj "text" (asText_ofText text)
    cases history <;>
      simp [editOf, ofEdit, tagged_single "text" (by decide), h₁, clipboardTag, bind,
        Except.bind, Functor.map, Except.map]
  | delete s =>
    have h₁ := single_obj "text_range" (spanOf_ofSpan (h s rfl))
    simp [editOf, ofEdit, tagged_single "text_range" (by decide), h₁, clipboardTag, bind,
      Except.bind, Functor.map, Except.map]

theorem find_arrowTag (a : Arrow) : arrows.find? (arrowTag · == arrowTag a) = some a := by
  cases a <;> decide +kernel

theorem nothing_obj : nothing (.obj []) = .ok () := rfl

theorem keystrokeOf_ofKeystroke (k : Keystroke) : keystrokeOf (ofKeystroke k) = .ok k := by
  cases k with
  | go a =>
    simp [keystrokeOf, ofKeystroke, tagged_ofTagged, find_arrowTag, nothing_obj, bind, Except.bind,
      Functor.map, Except.map]
  | extendRight =>
    have h : arrows.find? (arrowTag · == "EXTEND_RIGHT") = none := by decide +kernel
    simp [keystrokeOf, ofKeystroke, tagged_ofTagged, h, nothing_obj, bind, Except.bind, Functor.map,
      Except.map]
  | clear =>
    have h : arrows.find? (arrowTag · == "CLEAR") = none := by decide +kernel
    simp [keystrokeOf, ofKeystroke, tagged_ofTagged, h, nothing_obj, bind, Except.bind, Functor.map,
      Except.map]
  | insert text =>
    have h : arrows.find? (arrowTag · == "INSERT_TEXT") = none := by decide +kernel
    have h₁ := single_obj "text" (asText_ofText text)
    simp [keystrokeOf, ofKeystroke, tagged_single "text" (by decide), h, h₁, bind,
      Except.bind, Functor.map, Except.map]
  | setClipboard history text =>
    have h : arrows.find? (arrowTag · == clipboardTag history) = none := by
      cases history <;> decide +kernel
    have h₁ := single_obj "text" (asText_ofText text)
    simp only [keystrokeOf, ofKeystroke, tagged_single "text" (by decide), h, bind,
      Except.bind]
    cases history <;> simp [clipboardTag, h₁, Functor.map, Except.map]

end VoiceEdit.Exchange
