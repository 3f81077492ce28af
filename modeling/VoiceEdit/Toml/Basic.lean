import VoiceEdit.Text.Basic

/-!
# TOML documents

What a document says, and the table it is built in. A table may be extended in some
ways and not in others, by how it came about, so it remembers its `Origin` until the
document is complete.
-/
namespace VoiceEdit.Toml

/-- A value; numbers, booleans and dates are not told apart. -/
inductive Value where
  | text (t : Text)
  | scalar
  | list (items : List Value)
  | table (fields : List (Text × Value))

instance : Inhabited Value := ⟨.scalar⟩

/-- How a table came about: on the way to another one, by its header, or by a dotted key. -/
inductive Origin where
  | implicit
  | header
  | dotted
deriving DecidableEq, Repr

/-- A value, table or list of tables that is being built. -/
inductive Node where
  | value (v : Value)
  | table (o : Origin) (fields : List (Text × Node))
  | tables (items : List (List (Text × Node)))

abbrev Fields := List (Text × Node)

/-- Puts a node in the stead of the one of that name. -/
def setField (key : Text) (node : Node) (fields : Fields) : Fields :=
  fields.map fun f => if f.1 = key then (key, node) else f

/-- Changes the table that a header means by `key`, which in a list of tables is the
last; a table that is not there yet comes about. -/
def within (key : Text) (change : Fields → Option Fields) (fields : Fields) : Option Fields :=
  match fields.lookup key with
  | none => (change []).map fun sub => fields ++ [(key, .table .implicit sub)]
  | some (.table o sub) => (change sub).map fun sub => setField key (.table o sub) fields
  | some (.tables items) => do
    let last ← items.getLast?
    let last ← change last
    return setField key (.tables (items.dropLast ++ [last])) fields
  | some (.value _) => none

/-- Opens the table of a header; each is opened once. -/
def openTable : List Text → Fields → Option Fields
  | [], _ => none
  | [key], fields =>
    match fields.lookup key with
    | none => some (fields ++ [(key, .table .header [])])
    | some (.table .implicit sub) => some (setField key (.table .header sub) fields)
    | some _ => none
  | key :: path, fields => within key (openTable path) fields

/-- Adds a table to the list of a doubled header. -/
def openItem : List Text → Fields → Option Fields
  | [], _ => none
  | [key], fields =>
    match fields.lookup key with
    | none => some (fields ++ [(key, .tables [[]])])
    | some (.tables items) => some (setField key (.tables (items ++ [[]])) fields)
    | some _ => none
  | key :: path, fields => within key (openItem path) fields

/-- Assigns a value to a dotted key; only tables of other dotted keys are entered. -/
def assign : List Text → Value → Fields → Option Fields
  | [], _, _ => none
  | [key], v, fields =>
    match fields.lookup key with
    | none => some (fields ++ [(key, .value v)])
    | some _ => none
  | key :: path, v, fields =>
    match fields.lookup key with
    | none => (assign path v []).map fun sub => fields ++ [(key, .table .dotted sub)]
    | some (.table .dotted sub) =>
      (assign path v sub).map fun sub => setField key (.table .dotted sub) fields
    | some _ => none

/-- Assigns in the table of a header. -/
def assignIn : List Text → List Text → Value → Fields → Option Fields
  | [], key, v, fields => assign key v fields
  | table :: path, key, v, fields => within table (assignIn path key v) fields

mutual

def Node.toValue : Node → Value
  | .value v => v
  | .table _ fields => .table (fieldValues fields)
  | .tables items => .list (itemValues items)

def fieldValues : List (Text × Node) → List (Text × Value)
  | [] => []
  | (key, node) :: rest => (key, node.toValue) :: fieldValues rest

def itemValues : List (List (Text × Node)) → List Value
  | [] => []
  | fields :: rest => .table (fieldValues fields) :: itemValues rest

end

end VoiceEdit.Toml
