import VoiceEdit.Json.Reader
import VoiceEdit.Toml.Basic
import VoiceEdit.Toml.Scalar

/-!
# Reading TOML

Reads a document into a value, or refuses it. As in reading JSON, each part takes a text
and answers what it read and what is left, and the fuel is computed from the length of
the text.
-/
namespace VoiceEdit.Toml

open Json (hexDigit?)

/-! ## Blanks and comments -/

def isSpace (c : Char) : Bool := c == ' ' || c == '\t'

def skipBlank (cs : List Char) : List Char := cs.dropWhile isSpace

/-- A control character that may stand nowhere. -/
def isControl (c : Char) : Bool := (decide (c.toNat < 0x20) && c != '\t') || c.toNat == 0x7F

/-- What is left behind a newline. -/
def newline? : List Char → Option (List Char)
  | '\n' :: rest => some rest
  | '\r' :: '\n' :: rest => some rest
  | _ => none

/-- What is left of a line behind its comment. -/
def skipComment? (cs : List Char) : Option (List Char) :=
  match cs with
  | '#' :: rest =>
    let comment := rest.takeWhile fun c => c != '\n' && c != '\r'
    if comment.any isControl then none else some (rest.drop comment.length)
  | cs => some cs

/-- Skips blanks, comments and newlines. -/
def skipLines? : Nat → List Char → Option (List Char)
  | 0, _ => none
  | fuel + 1, cs => do
    let rest ← skipComment? (skipBlank cs)
    match newline? rest with
    | some rest => skipLines? fuel rest
    | none => some rest

/-! ## Strings -/

/-- The character with this number, which `n` hexadecimal digits give. -/
def hexEscape? (n : Nat) (cs : List Char) : Option (Char × List Char) := do
  let ds ← (cs.take n).mapM hexDigit?
  let code := ds.foldl (fun v d => v * 16 + d) 0
  if ds.length ≠ n ∨ (0xD800 ≤ code ∧ code < 0xE000) ∨ 0x110000 ≤ code then none
  else some (Char.ofNat code, cs.drop n)

/-- The character that what stands behind a backslash means. -/
def escape? : List Char → Option (Char × List Char)
  | 'b' :: rest => some ('\u0008', rest)
  | 't' :: rest => some ('\t', rest)
  | 'n' :: rest => some ('\n', rest)
  | 'f' :: rest => some ('\u000C', rest)
  | 'r' :: rest => some ('\r', rest)
  | 'e' :: rest => some ('\u001B', rest)
  | '"' :: rest => some ('"', rest)
  | '\\' :: rest => some ('\\', rest)
  | 'x' :: rest => hexEscape? 2 rest
  | 'u' :: rest => hexEscape? 4 rest
  | 'U' :: rest => hexEscape? 8 rest
  | _ => none

/-- The rest of a string on one line behind its opening quote `q`; only between double
quotes a backslash escapes. -/
def lineString? (q : Char) : Nat → List Char → List Char → Option (Text × List Char)
  | 0, _, _ => none
  | _, _, [] => none
  | fuel + 1, acc, c :: rest =>
    if c = q then some (acc.reverse, rest)
    else if c = '\\' ∧ q = '"' then
      match escape? rest with
      | some (c, rest) => lineString? q fuel (c :: acc) rest
      | none => none
    else if isControl c then none
    else lineString? q fuel (c :: acc) rest

/-- What is left behind a backslash that ends its line, and behind the white space of
the lines that follow. -/
def continuation? (cs : List Char) : Option (List Char) :=
  (newline? (skipBlank cs)).map fun rest =>
    rest.dropWhile fun c => isSpace c || c == '\n' || c == '\r'

/-- The rest of a string over several lines behind its opening quotes. Its closing
quotes are the last three of up to five. -/
def blockString? (q : Char) : Nat → List Char → List Char → Option (Text × List Char)
  | 0, _, _ => none
  | _, _, [] => none
  | fuel + 1, acc, c :: rest =>
    if c = q then
      let quotes := ((c :: rest).takeWhile (· == q)).length
      if quotes < 3 then blockString? q fuel (c :: acc) rest
      else if 5 < quotes then none
      else some (acc.reverse ++ List.replicate (quotes - 3) q, (c :: rest).drop quotes)
    else if c = '\\' ∧ q = '"' then
      match continuation? rest with
      | some rest => blockString? q fuel acc rest
      | none =>
        match escape? rest with
        | some (c, rest) => blockString? q fuel (c :: acc) rest
        | none => none
    else
      match newline? (c :: rest) with
      | some rest => blockString? q fuel ('\n' :: acc) rest
      | none => if isControl c then none else blockString? q fuel (c :: acc) rest

/-- A text of up to several lines, without the newline behind its opening quotes. -/
def blockBody? (q : Char) (cs : List Char) : Option (Text × List Char) :=
  let cs := (newline? cs).getD cs
  blockString? q (cs.length + 1) [] cs

/-! ## Keys -/

def isBareKey (c : Char) : Bool := c.isAlphanum || c == '_' || c == '-'

def simpleKey? (cs : List Char) : Option (Text × List Char) :=
  match cs with
  | '"' :: rest => lineString? '"' (rest.length + 1) [] rest
  | '\'' :: rest => lineString? '\'' (rest.length + 1) [] rest
  | cs =>
    let key := cs.takeWhile isBareKey
    if key.isEmpty then none else some (key, cs.drop key.length)

/-- A dotted key, with blanks allowed around its dots. -/
def key? : Nat → List Char → Option (List Text × List Char)
  | 0, _ => none
  | fuel + 1, cs => do
    let (key, rest) ← simpleKey? (skipBlank cs)
    match skipBlank rest with
    | '.' :: rest => do
      let (path, rest) ← key? fuel rest
      return (key :: path, rest)
    | rest => return ([key], rest)

/-! ## Values -/

def isScalarChar (c : Char) : Bool :=
  c.isAlphanum || c == '+' || c == '-' || c == '_' || c == '.' || c == ':'

/-- The word that a scalar is; a date and its time may have a space between them. -/
def scalarWord (cs : List Char) : List Char :=
  let word := cs.takeWhile isScalarChar
  match cs.drop word.length with
  | ' ' :: a :: b :: ':' :: rest =>
    if afterDate? word = some [] ∧ a.isDigit ∧ b.isDigit then
      word ++ ' ' :: a :: b :: ':' :: rest.takeWhile isScalarChar
    else word
  | _ => word

mutual

def value? : Nat → List Char → Option (Value × List Char)
  | 0, _ => none
  | fuel + 1, cs =>
    match cs with
    | '"' :: '"' :: '"' :: rest => (blockBody? '"' rest).map fun (t, rest) => (.text t, rest)
    | '\'' :: '\'' :: '\'' :: rest => (blockBody? '\'' rest).map fun (t, rest) => (.text t, rest)
    | '"' :: rest => (lineString? '"' (rest.length + 1) [] rest).map fun (t, rest) => (.text t, rest)
    | '\'' :: rest =>
      (lineString? '\'' (rest.length + 1) [] rest).map fun (t, rest) => (.text t, rest)
    | '[' :: rest => (items? fuel rest).map fun (items, rest) => (.list items, rest)
    | '{' :: rest => (members? fuel [] rest).map fun (fields, rest) => (.table (fieldValues fields), rest)
    | cs =>
      let word := scalarWord cs
      if isScalar word then some (.scalar, cs.drop word.length) else none

/-- The items of a list up to its end; a comma may stand behind the last. -/
def items? : Nat → List Char → Option (List Value × List Char)
  | 0, _ => none
  | fuel + 1, cs => do
    let rest ← skipLines? (cs.length + 1) cs
    match rest with
    | ']' :: rest => return ([], rest)
    | rest => do
      let (item, rest) ← value? fuel rest
      let rest ← skipLines? (rest.length + 1) rest
      match rest with
      | ']' :: rest => return ([item], rest)
      | ',' :: rest => do
        let (items, rest) ← items? fuel rest
        return (item :: items, rest)
      | _ => none

/-- The fields of a table in braces up to its end, put to those read before. -/
def members? : Nat → Fields → List Char → Option (Fields × List Char)
  | 0, _, _ => none
  | fuel + 1, fields, cs => do
    let rest ← skipLines? (cs.length + 1) cs
    match rest with
    | '}' :: rest => return (fields, rest)
    | rest => do
      let (key, rest) ← key? (rest.length + 1) rest
      let '=' :: rest := rest | none
      let (v, rest) ← value? fuel (skipBlank rest)
      let fields ← assign key v fields
      let rest ← skipLines? (rest.length + 1) rest
      match rest with
      | '}' :: rest => return (fields, rest)
      | ',' :: rest => members? fuel fields rest
      | _ => none

end

/-! ## Documents -/

/-- What is left behind a statement, which ends its line. -/
def endOfLine? (cs : List Char) : Option (List Char) := do
  let rest ← skipComment? (skipBlank cs)
  if rest.isEmpty then some [] else newline? rest

/-- The rest of a document; `table` is the path of the last header. -/
def statements? : Nat → List Text → Fields → List Char → Option Fields
  | 0, _, _, _ => none
  | fuel + 1, table, fields, cs => do
    let rest ← skipLines? (cs.length + 1) cs
    match rest with
    | [] => some fields
    | '[' :: '[' :: rest => do
      let (path, rest) ← key? (rest.length + 1) rest
      let ']' :: ']' :: rest := rest | none
      let fields ← openItem path fields
      statements? fuel path fields (← endOfLine? rest)
    | '[' :: rest => do
      let (path, rest) ← key? (rest.length + 1) rest
      let ']' :: rest := rest | none
      let fields ← openTable path fields
      statements? fuel path fields (← endOfLine? rest)
    | rest => do
      let (key, rest) ← key? (rest.length + 1) rest
      let '=' :: rest := rest | none
      let (v, rest) ← value? (2 * rest.length + 2) (skipBlank rest)
      let fields ← assignIn table key v fields
      statements? fuel table fields (← endOfLine? rest)

/-- The fields of a document. A byte order mark may begin it. -/
def parse? (text : Text) : Option (List (Text × Value)) :=
  let cs := match text with
    | '\uFEFF' :: rest => rest
    | cs => cs
  (statements? (cs.length + 1) [] [] cs).map fieldValues

end VoiceEdit.Toml
