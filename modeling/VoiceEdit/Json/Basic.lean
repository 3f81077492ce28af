/-!
# JSON values

A value as it is exchanged with a host. Numbers are told apart by how they are written:
64-bit integers by their value, all others by their text, since nothing exchanged here
takes them. The fields of an object are kept in the order of their names, each once.

Results:

* `lookup_insertField`: the last field of a name wins.
-/
namespace VoiceEdit

inductive Json where
  | null
  | bool (b : Bool)
  | integer (n : Int)
  | decimal (text : String)
  | str (s : String)
  | arr (items : List Json)
  | obj (fields : List (String × Json))

namespace Json

instance : Inhabited Json := ⟨.null⟩

/-- The first integer that needs more than 63 bits. -/
def signedLimit : Nat := 9223372036854775808

/-- The first integer that needs more than 64 bits. -/
def unsignedLimit : Nat := 18446744073709551616

/-- Puts a field in its place by name, in the stead of an earlier one of that name. -/
def insertField (name : String) (value : Json) : List (String × Json) → List (String × Json)
  | [] => [(name, value)]
  | (n, v) :: rest =>
    if name = n then (name, value) :: rest
    else if name < n then (name, value) :: (n, v) :: rest
    else (n, v) :: insertField name value rest

/-- A field of an object; an absent field reads as null. -/
def field (j : Json) (name : String) : Json :=
  match j with
  | .obj fields => (fields.lookup name).getD .null
  | _ => .null

/-! ## Laws -/

/-- The last field of a name wins. -/
theorem lookup_insertField (name : String) (value : Json) (fields : List (String × Json)) :
    (insertField name value fields).lookup name = some value := by
  induction fields with
  | nil => simp [insertField]
  | cons f rest ih =>
    obtain ⟨n, v⟩ := f
    simp only [insertField]
    split
    · simp
    · rename_i hne
      split
      · simp
      · have : (name == n) = false := by simpa using hne
        simp [List.lookup_cons, this, ih]

end Json

end VoiceEdit
