/-!
# TOML numbers, booleans and dates

Which words are scalars. Nothing exchanged here takes one, so they are recognised and
not evaluated.
-/
namespace VoiceEdit.Toml

/-- Digits of one base, with single underscores between them. -/
def isDigits (isDigit : Char → Bool) : List Char → Bool
  | [] => false
  | [d] => isDigit d
  | d :: '_' :: rest => isDigit d && isDigits isDigit rest
  | d :: rest => isDigit d && isDigits isDigit rest

/-- Decimal digits that do not start with a zero, unless that is all. -/
def isDecimal (cs : List Char) : Bool :=
  isDigits Char.isDigit cs && (cs.head? != some '0' || cs.length == 1)

def dropSign : List Char → List Char
  | '+' :: rest | '-' :: rest => rest
  | cs => cs

def isHexDigit (c : Char) : Bool :=
  c.isDigit || (decide ('a' ≤ c) && decide (c ≤ 'f')) || (decide ('A' ≤ c) && decide (c ≤ 'F'))

def isInteger (cs : List Char) : Bool :=
  match cs with
  | '0' :: 'x' :: rest => isDigits isHexDigit rest
  | '0' :: 'o' :: rest => isDigits (fun c => decide ('0' ≤ c) && decide (c ≤ '7')) rest
  | '0' :: 'b' :: rest => isDigits (fun c => c == '0' || c == '1') rest
  | cs => isDecimal (dropSign cs)

/-- The part of a number behind `e`. -/
def isExponent (cs : List Char) : Bool := isDigits Char.isDigit (dropSign cs)

def isFloat (cs : List Char) : Bool :=
  let cs := dropSign cs
  if cs = ['i', 'n', 'f'] || cs = ['n', 'a', 'n'] then true
  else
    let isE (c : Char) := c == 'e' || c == 'E'
    let mantissa := cs.takeWhile (!isE ·)
    let exponent := cs.drop mantissa.length
    let whole := mantissa.takeWhile (· != '.')
    let fraction := mantissa.drop whole.length
    isDecimal whole && (!fraction.isEmpty || !exponent.isEmpty) &&
      (fraction.isEmpty || isDigits Char.isDigit (fraction.drop 1)) &&
      (exponent.isEmpty || isExponent (exponent.drop 1))

/-! ## Dates and times -/

/-- The number that `n` digits are, and what is left. -/
def digitsOf? (n : Nat) (cs : List Char) : Option (Nat × List Char) :=
  let ds := cs.take n
  if ds.length = n ∧ ds.all Char.isDigit then
    some (ds.foldl (fun v d => v * 10 + (d.toNat - '0'.toNat)) 0, cs.drop n)
  else none

def daysIn (year month : Nat) : Nat :=
  if month = 2 then
    if year % 4 = 0 ∧ (year % 100 ≠ 0 ∨ year % 400 = 0) then 29 else 28
  else if month = 4 ∨ month = 6 ∨ month = 9 ∨ month = 11 then 30
  else 31

/-- What is left behind a date. -/
def afterDate? (cs : List Char) : Option (List Char) := do
  let (year, rest) ← digitsOf? 4 cs
  let '-' :: rest := rest | none
  let (month, rest) ← digitsOf? 2 rest
  let '-' :: rest := rest | none
  let (day, rest) ← digitsOf? 2 rest
  if 1 ≤ month ∧ month ≤ 12 ∧ 1 ≤ day ∧ day ≤ daysIn year month then some rest else none

/-- What is left behind a time; its seconds may be left out. -/
def afterTime? (cs : List Char) : Option (List Char) := do
  let (hour, rest) ← digitsOf? 2 cs
  let ':' :: rest := rest | none
  let (minute, rest) ← digitsOf? 2 rest
  if 23 < hour ∨ 59 < minute then none
  match rest with
  | ':' :: rest => do
    let (second, rest) ← digitsOf? 2 rest
    if 60 < second then none
    match rest with
    | '.' :: fraction =>
      let ds := fraction.takeWhile Char.isDigit
      if ds.isEmpty then none else some (fraction.drop ds.length)
    | rest => some rest
  | rest => some rest

/-- The text is the distance of a zone from universal time, or nothing. -/
def isZone (cs : List Char) : Bool :=
  match cs with
  | [] | ['Z'] | ['z'] => true
  | s :: rest =>
    if s == '+' || s == '-' then
      match digitsOf? 2 rest with
      | some (hour, ':' :: rest) =>
        match digitsOf? 2 rest with
        | some (minute, []) => decide (hour ≤ 23) && decide (minute ≤ 59)
        | _ => false
      | _ => false
    else false

def isDateTime (cs : List Char) : Bool :=
  match afterDate? cs with
  | some [] => true
  | some (sep :: rest) =>
    (sep == 'T' || sep == 't' || sep == ' ') && ((afterTime? rest).any isZone)
  | none => afterTime? cs == some []

/-- The word is a number, a boolean or a date. -/
def isScalar (cs : List Char) : Bool :=
  cs == ['t', 'r', 'u', 'e'] || cs == ['f', 'a', 'l', 's', 'e'] || isInteger cs || isFloat cs ||
    isDateTime cs

end VoiceEdit.Toml
