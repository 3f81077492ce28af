import VoiceEdit.Target
import VoiceEdit.Text.CharClass
import VoiceEdit.Text.Nesting

/-!
# Function calls

A call is a chain of names and groups (`a.b::c->d(…)[…]`) that ends in a balanced list
of arguments. The chain is read backwards from the parenthesis that opens the list.

Results:

* `calleeStart_le`: a callee starts before its argument list.
-/
namespace VoiceEdit.Call

/-- What a parenthesis must follow to open an argument list. -/
def isCallable (c : Char) : Bool := isWord c || c == ')' || c == ']'

/-- The parenthesis at `i` follows something that can be called. -/
def opensArguments (t : Text) (i : Nat) : Bool := t.prevIs isCallable i

/-- A character of a chain, given its neighbours: a hyphen only before `>`, and `>`
only behind a hyphen. -/
def isChainChar (prev : Option Char) (c : Char) (next : Option Char) : Bool :=
  isWord c || c == '.' || c == ':' || c == '*' ||
    (c == '-' && next == some '>') || (c == '>' && prev == some '-')

/-- Where the chain starts, read backwards: the number of characters before it. The
first argument counts characters of a group still to be passed over, and `next` is the
character behind. -/
def chainStart : Nat → Option Char → List Char → Nat
  | _, _, [] => 0
  | skip + 1, _, c :: rest => chainStart skip (some c) rest
  | 0, next, c :: rest =>
    if c = ')' ∨ c = ']' then
      let opener := if c = ')' then '(' else '['
      match (unclosed (· == opener) (· == c) 0 rest).head? with
      | some o => chainStart (rest.length - o) (some c) rest
      | none => rest.length + 1
    else if isChainChar rest.head? c next then chainStart 0 (some c) rest
    else rest.length + 1

/-- Joints of a chain, which no name starts with. -/
def isJoint (c : Char) : Bool := c == '.' || c == ':' || c == '-' || c == '>'

/-- Where the callee of the argument list at `open` starts. -/
def calleeStart (t : Text) (opener : Nat) : Nat :=
  let start := chainStart 0 t[opener]? (t.before opener)
  start + min (t.runAfter isJoint start) (opener - start)

/-- The whole call whose argument list opens at `opener`. -/
def at? (t : Text) (opener : Nat) : Except Span.Error (Option Span) := do
  if !opensArguments t opener then return none
  match t.closing? (· == '(') (· == ')') opener with
  | none => return none
  | some closer =>
    let start := calleeStart t opener
    if start = opener then return none
    some <$> Span.ofBounds start (closer + 1)

/-- How many characters of a chain follow, `prev` being the one before. -/
def chainLength (prev : Option Char) : List Char → Nat
  | [] => 0
  | c :: rest => if isChainChar prev c rest.head? then chainLength (some c) rest + 1 else 0

/-- The parenthesis of the call at `i`: the one reached across the callee, else the
innermost one around `i` that opens an argument list. -/
def openerAt? (t : Text) (i : Nat) : Option Nat :=
  let pos := i + chainLength (t.prev? i) (t.after i)
  if t.nextIs (· == '(') pos && opensArguments t pos then some pos
  else (t.groupsAround (· == '(') (· == ')') i).find? (opensArguments t)

/-- The call around `s`. -/
def around? (t : Text) (s : Span) : Except Span.Error (Option Span) :=
  match openerAt? t s.start with
  | none => return none
  | some opener => at? t opener

/-- The positions of the opening parentheses, for a text that begins at offset `pos`. -/
def parensFrom (pos : Nat) : List Char → List Nat
  | [] => []
  | c :: rest => if c = '(' then pos :: parensFrom (pos + 1) rest else parensFrom (pos + 1) rest

/-- The call whose argument list opens at `opener`, where there is one. -/
def whole? (t : Text) (opener : Nat) : Option Span := (at? t opener).toOption.join

/-- The calls whose argument lists open at or behind `i`, in text order. -/
def callsFrom (t : Text) (i : Nat) : List Span := (parensFrom i (t.after i)).filterMap (whole? t)

/-- The calls whose argument lists open before `i`, nearest first. -/
def callsBefore (t : Text) (i : Nat) : List Span :=
  (parensFrom 0 (t.take i)).reverse.filterMap (whole? t)

/-- The first call that opens on the line of `s` or later. -/
def first? (t : Text) (s : Span) : Option Span := (callsFrom t (t.lineStart s.start)).head?

/-- The first call that starts behind `s`. -/
def next? (t : Text) (s : Span) : Option Span :=
  (callsFrom t s.stop).find? fun call => decide (s.stop ≤ call.start)

/-- The last call that ends before `s`. -/
def previous? (t : Text) (s : Span) : Option Span :=
  (callsBefore t s.start).find? fun call => decide (call.stop ≤ s.start)

/-! ## Laws -/

theorem chainStart_le (skip : Nat) (next : Option Char) (cs : List Char) :
    chainStart skip next cs ≤ cs.length := by
  fun_induction chainStart skip next cs <;> simp_all <;> omega

theorem calleeStart_le (t : Text) (opener : Nat) : calleeStart t opener ≤ opener := by
  have h : chainStart 0 t[opener]? (t.before opener) ≤ opener := by
    have := chainStart_le 0 t[opener]? (t.before opener)
    rw [Text.length_before] at this
    omega
  simp only [calleeStart]
  omega

end VoiceEdit.Call
