import VoiceEdit.Json.Basic

/-!
# Reading JSON

The JSON grammar, without any liberty: no leading zeros, no control characters in
strings, no half of a surrogate pair, and nothing nested deeper than 127 containers.
Each part of the grammar takes a text and answers what it read and what is left; the
fuel is the length of the text, which every step shortens.
-/
namespace VoiceEdit.Json

/-- How many containers may lie in each other. -/
def depthLimit : Nat := 127

def isJsonBlank (c : Char) : Bool := c == ' ' || c == '\n' || c == '\t' || c == '\r'

def skipBlank (cs : List Char) : List Char := cs.dropWhile isJsonBlank

/-! ## Strings -/

def hexDigit? (c : Char) : Option Nat :=
  if '0' ≤ c ∧ c ≤ '9' then some (c.toNat - '0'.toNat)
  else if 'a' ≤ c ∧ c ≤ 'f' then some (c.toNat - 'a'.toNat + 10)
  else if 'A' ≤ c ∧ c ≤ 'F' then some (c.toNat - 'A'.toNat + 10)
  else none

/-- Four hexadecimal digits. -/
def hexUnit? : List Char → Option (Nat × List Char)
  | a :: b :: c :: d :: rest => do
    let a ← hexDigit? a
    let b ← hexDigit? b
    let c ← hexDigit? c
    let d ← hexDigit? d
    return (((a * 16 + b) * 16 + c) * 16 + d, rest)
  | _ => none

/-- What stands behind `\u`: one unit, or the two of a surrogate pair. -/
def unicodeEscape? (cs : List Char) : Option (Char × List Char) := do
  let (high, rest) ← hexUnit? cs
  if 0xD800 ≤ high ∧ high < 0xDC00 then
    match rest with
    | '\\' :: 'u' :: rest => do
      let (low, rest) ← hexUnit? rest
      if 0xDC00 ≤ low ∧ low < 0xE000 then
        return (Char.ofNat (0x10000 + (high - 0xD800) * 0x400 + (low - 0xDC00)), rest)
      else none
    | _ => none
  else if 0xDC00 ≤ high ∧ high < 0xE000 then none
  else return (Char.ofNat high, rest)

/-- The character that a backslash and `c` stand for. -/
def simpleEscape? (c : Char) : Option Char :=
  match c with
  | '"' => some '"'
  | '\\' => some '\\'
  | '/' => some '/'
  | 'b' => some '\u0008'
  | 'f' => some '\u000C'
  | 'n' => some '\n'
  | 'r' => some '\r'
  | 't' => some '\t'
  | _ => none

/-- The rest of a string behind its opening quote; `acc` is what was read, last first. -/
def stringRest? : Nat → List Char → List Char → Option (String × List Char)
  | 0, _, _ => none
  | _, _, [] => none
  | fuel + 1, acc, c :: rest =>
    if c = '"' then some (String.ofList acc.reverse, rest)
    else if c = '\\' then
      match rest with
      | 'u' :: rest =>
        match unicodeEscape? rest with
        | some (c, rest) => stringRest? fuel (c :: acc) rest
        | none => none
      | e :: rest =>
        match simpleEscape? e with
        | some c => stringRest? fuel (c :: acc) rest
        | none => none
      | [] => none
    else if c.toNat < 0x20 then none
    else stringRest? fuel (c :: acc) rest

/-! ## Numbers -/

/-- The digits at the beginning of a text, at least one. -/
def digits? (cs : List Char) : Option (List Char × List Char) :=
  let ds := cs.takeWhile Char.isDigit
  if ds.isEmpty then none else some (ds, cs.drop ds.length)

def digitsValue (ds : List Char) : Nat := ds.foldl (fun n d => n * 10 + (d.toNat - '0'.toNat)) 0

/-- The fraction and exponent at the beginning of a text, empty where there are none. -/
def fractionPart? (cs : List Char) : Option (List Char × List Char) := do
  let (fraction, rest) ← match cs with
    | '.' :: rest => (digits? rest).map fun (ds, rest) => ('.' :: ds, rest)
    | _ => some ([], cs)
  match rest with
  | e :: tail =>
    if e = 'e' ∨ e = 'E' then
      match tail with
      | s :: more =>
        if s = '+' ∨ s = '-' then
          (digits? more).map fun (ds, rest) => (fraction ++ e :: s :: ds, rest)
        else (digits? tail).map fun (ds, rest) => (fraction ++ e :: ds, rest)
      | [] => none
    else some (fraction, rest)
  | [] => some (fraction, rest)

/-- A number: an integer where 64 bits hold it, other than minus zero. -/
def number? (negative : Bool) (cs : List Char) : Option (Json × List Char) := do
  let (whole, rest) ← digits? cs
  if whole.head? = some '0' ∧ 1 < whole.length then none
  let (fraction, rest) ← fractionPart? rest
  let n := digitsValue whole
  let text := String.ofList ((if negative then ['-'] else []) ++ whole ++ fraction)
  if !fraction.isEmpty then return (.decimal text, rest)
  else if negative then
    if 0 < n ∧ n ≤ signedLimit then return (.integer (-n), rest) else return (.decimal text, rest)
  else if n < unsignedLimit then return (.integer n, rest)
  else return (.decimal text, rest)

/-! ## Values -/

mutual

/-- A value, and what is left behind it. -/
def value? : Nat → Nat → List Char → Option (Json × List Char)
  | 0, _, _ => none
  | fuel + 1, depth, cs =>
    match skipBlank cs with
    | 'n' :: 'u' :: 'l' :: 'l' :: rest => some (.null, rest)
    | 't' :: 'r' :: 'u' :: 'e' :: rest => some (.bool true, rest)
    | 'f' :: 'a' :: 'l' :: 's' :: 'e' :: rest => some (.bool false, rest)
    | '"' :: rest => (stringRest? (rest.length + 1) [] rest).map fun (s, rest) => (.str s, rest)
    | '-' :: rest => number? true rest
    | '[' :: rest =>
      match depth with
      | 0 => none
      | depth + 1 =>
        match skipBlank rest with
        | ']' :: rest => some (.arr [], rest)
        | rest => (items? fuel depth rest).map fun (items, rest) => (.arr items, rest)
    | '{' :: rest =>
      match depth with
      | 0 => none
      | depth + 1 =>
        match skipBlank rest with
        | '}' :: rest => some (.obj [], rest)
        | rest => (members? fuel depth [] rest).map fun (fields, rest) => (.obj fields, rest)
    | rest => number? false rest

/-- The items of an array up to its end. -/
def items? : Nat → Nat → List Char → Option (List Json × List Char)
  | 0, _, _ => none
  | fuel + 1, depth, cs => do
    let (item, rest) ← value? fuel depth cs
    match skipBlank rest with
    | ']' :: rest => return ([item], rest)
    | ',' :: rest => do
      let (items, rest) ← items? fuel depth rest
      return (item :: items, rest)
    | _ => none

/-- The fields of an object up to its end, put to those read before. -/
def members? : Nat → Nat → List (String × Json) → List Char →
    Option (List (String × Json) × List Char)
  | 0, _, _, _ => none
  | fuel + 1, depth, fields, cs =>
    match skipBlank cs with
    | '"' :: rest => do
      let (name, rest) ← stringRest? (rest.length + 1) [] rest
      match skipBlank rest with
      | ':' :: rest => do
        let (value, rest) ← value? fuel depth rest
        let fields := insertField name value fields
        match skipBlank rest with
        | '}' :: rest => return (fields, rest)
        | ',' :: rest => members? fuel depth fields rest
        | _ => none
      | _ => none
    | _ => none

end

/-- The value that a whole text is. -/
def parse? (text : String) : Option Json := do
  let cs := text.toList
  let (value, rest) ← value? (2 * cs.length + 2) depthLimit cs
  if (skipBlank rest).isEmpty then return value else none

end VoiceEdit.Json
