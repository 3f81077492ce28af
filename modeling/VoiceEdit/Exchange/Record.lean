import VoiceEdit.Json.Basic
import VoiceEdit.Span

/-!
# Records, choices and scalars in JSON

How the values of this library are written in JSON. A record is an object of its
fields, and is also read from the array of its fields in order, where fields that may
be left out may be missing at the end. A choice is the name of one of its cases, and is
also read from an object of that name and null. Fields a record does not know are
passed over.

Results:

* `asNat_ofNat`, `asText_ofText`: scalars are read back as they were written.
-/
namespace VoiceEdit.Exchange

/-- Why a value was refused: it has the wrong shape, or a span in it is invalid. -/
inductive Error where
  | shape
  | span (e : Span.Error)
deriving DecidableEq, Repr

abbrev Result (α : Type) := Except Error α

/-! ## Scalars -/

def ofText (t : List Char) : Json := .str (String.ofList t)

def asText : Json → Result (List Char)
  | .str s => .ok s.toList
  | _ => .error .shape

def asChar : Json → Result Char
  | .str s =>
    match s.toList with
    | [c] => .ok c
    | _ => .error .shape
  | _ => .error .shape

/-- A count that is not negative. -/
def asNat : Json → Result Nat
  | .integer n => if 0 ≤ n then .ok n.toNat else .error .shape
  | _ => .error .shape

/-- An integer that is signed and has 64 bits. -/
def asInt : Json → Result Int
  | .integer n => if n.toNat < Json.signedLimit then .ok n else .error .shape
  | _ => .error .shape

/-- A value that may be missing, which is written as null. -/
def ofOption {α : Type} (write : α → Json) : Option α → Json
  | some a => write a
  | none => .null

def asOption {α : Type} (read : Json → Result α) : Json → Result (Option α)
  | .null => .ok none
  | j => some <$> read j

def asList {α : Type} (read : Json → Result α) : Json → Result (List α)
  | .arr items => items.mapM read
  | _ => .error .shape

/-- One of the cases that `find?` knows by name. -/
def asChoice {α : Type} (find? : String → Option α) : Json → Result α
  | .str name | .obj [(name, .null)] =>
    match find? name with
    | some a => .ok a
    | none => .error .shape
  | _ => .error .shape

/-! ## Records -/

/-- The fields of a record of these names, with what they hold. -/
def fieldsOf (names : List String) : Json → Result (List (String × Json))
  | .obj fields => .ok fields
  | .arr items => .ok (names.zip items)
  | _ => .error .shape

/-- Refuses an array of more items than a record has fields. -/
def checkSurplus (names : List String) : Json → Result Unit
  | .arr items => if items.length ≤ names.length then .ok () else .error .shape
  | _ => .ok ()

/-- Refuses fields that the record does not know. -/
def checkKnown (names : List String) (fields : List (String × Json)) : Result Unit :=
  if fields.all fun f => names.contains f.1 then .ok () else .error .shape

/-- A field that must be there. -/
def required {α : Type} (fields : List (String × Json)) (name : String) (read : Json → Result α) :
    Result α :=
  match fields.lookup name with
  | some j => read j
  | none => .error .shape

/-- A field that is `missing` where it is not there. -/
def optional {α : Type} (fields : List (String × Json)) (name : String) (read : Json → Result α)
    (missing : α) : Result α :=
  match fields.lookup name with
  | some j => read j
  | none => .ok missing

/-! ## Laws -/

@[simp] theorem asText_ofText (t : List Char) : asText (ofText t) = .ok t := by
  simp [asText, ofText]

@[simp] theorem asChar_ofText (c : Char) : asChar (ofText [c]) = .ok c := by
  simp [asChar, ofText]

@[simp] theorem asNat_ofNat (n : Nat) : asNat (.integer n) = .ok n := by simp [asNat]

theorem asInt_ofNat {n : Nat} (h : n < Json.signedLimit) : asInt (.integer n) = .ok (n : Int) := by
  have : (n : Int).toNat < Json.signedLimit := by omega
  simp only [asInt, if_pos this]

@[simp] theorem asOption_ofOption_text (t : Option (List Char)) :
    asOption asText (ofOption ofText t) = .ok t := by
  cases t with
  | none => rfl
  | some t => simp [ofOption, ofText, asOption, asText, Functor.map, Except.map]

theorem mapM_map_eq_ok {α β : Type} {read : β → Result α} {write : α → β}
    (h : ∀ a, read (write a) = .ok a) (as : List α) : (as.map write).mapM read = .ok as := by
  induction as with
  | nil => rfl
  | cons a as ih => simp [h, ih, bind, Except.bind, pure, Except.pure]

theorem asList_map {α : Type} {read : Json → Result α} {write : α → Json}
    (h : ∀ a, read (write a) = .ok a) (as : List α) : asList read (.arr (as.map write)) = .ok as :=
  mapM_map_eq_ok h as

end VoiceEdit.Exchange
