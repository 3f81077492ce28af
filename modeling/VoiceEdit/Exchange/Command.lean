import VoiceEdit.Command.Basic
import VoiceEdit.Exchange.Record

/-!
# Modifiers and commands in JSON

Kinds go by their codes. All of a modifier but its kind may be left out, and all of a
command but its kind; what a host attaches to a command is not exchanged.

Results:

* `modifierOf_ofModifier`, `commandOf_ofCommand`: what was written is read back.
-/
namespace VoiceEdit.Exchange

def modifierNames : List String := ["modifier_type", "repeat", "search", "delimiter"]

def ofModifier (m : Modifier) : Json :=
  .obj [("modifier_type", .str m.kind.code), ("repeat", .integer m.repetitions),
    ("search", ofOption ofText m.query), ("delimiter", ofText [m.delimiter])]

def modifierOf (j : Json) : Result Modifier := do
  let fields ← fieldsOf modifierNames j
  let kind ← required fields "modifier_type" (asChoice Modifier.Kind.ofCode?)
  let repetitions ← optional fields "repeat" asNat 1
  let query ← optional fields "search" (asOption asText) none
  let delimiter ← optional fields "delimiter" asChar '"'
  checkSurplus modifierNames j
  return { kind, repetitions, query, delimiter }

def commandNames : List String :=
  ["command_type", "modifiers", "extend_modifiers", "extend_type", "insert_text"]

def ofCommand (c : Command) : Json :=
  .obj [("command_type", .str c.kind.code), ("modifiers", .arr (c.modifiers.map ofModifier)),
    ("extend_modifiers", .arr (c.extendModifiers.map ofModifier)),
    ("extend_type", .str c.reach.code), ("insert_text", ofOption ofText c.insertText)]

def reachOf : Json → Result Reach := asChoice Reach.ofCode?

def commandOf (j : Json) : Result Command := do
  let fields ← fieldsOf commandNames j
  let kind ← required fields "command_type" (asChoice Command.Kind.ofCode?)
  let modifiers ← optional fields "modifiers" (asList modifierOf) []
  let extendModifiers ← optional fields "extend_modifiers" (asList modifierOf) []
  let reach ← optional fields "extend_type" reachOf .including
  let insertText ← optional fields "insert_text" (asOption asText) none
  checkSurplus commandNames j
  return { kind, modifiers, extendModifiers, reach, insertText }

/-! ## Laws -/

theorem asChoice_str {α : Type} {find? : String → Option α} {name : String} {a : α}
    (h : find? name = some a) : asChoice find? (.str name) = .ok a := by simp [asChoice, h]

theorem modifierOf_ofModifier (m : Modifier) : modifierOf (ofModifier m) = .ok m := by
  have h := asChoice_str (Modifier.Kind.ofCode?_code m.kind)
  simp [modifierOf, ofModifier, fieldsOf, required, optional, checkSurplus, h, bind, Except.bind,
    pure, Except.pure, List.lookup_cons]

theorem commandOf_ofCommand (c : Command) : commandOf (ofCommand c) = .ok c := by
  have h₁ := asChoice_str (Command.Kind.ofCode?_code c.kind)
  have h₂ : reachOf (.str c.reach.code) = .ok c.reach := asChoice_str c.reach.ofCode?_code
  simp [commandOf, ofCommand, fieldsOf, required, optional, checkSurplus, h₁, h₂,
    asList_map modifierOf_ofModifier, bind, Except.bind, pure, Except.pure, List.lookup_cons]

end VoiceEdit.Exchange
