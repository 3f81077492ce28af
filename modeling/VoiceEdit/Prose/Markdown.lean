import VoiceEdit.Text.Lines

/-!
# Links and sections

A link is written `[label](address)` on one line. A section goes from its heading, a
line of number signs and a space, to the line before the next heading.

Results:

* `linkLength?_le`: a link ends in the text it was read from.
-/
namespace VoiceEdit.Markdown

/-! ## Links -/

/-- How many characters a part takes that ends with `stop`, which is not in it. -/
def partLength? (stop : Char) (t : List Char) : Option Nat :=
  let inner := t.takeWhile fun c => c != stop && c != '\n'
  if t[inner.length]? = some stop then some (inner.length + 1) else none

/-- The length of the link that a text begins with. -/
def linkLength? : List Char → Option Nat
  | '[' :: rest => do
    let label ← partLength? ']' rest
    match rest.drop label with
    | '(' :: address => (partLength? ')' address).map (label + 2 + ·)
    | _ => none
  | _ => none

/-- Where the links of a text start and stop, read from the left; `pos` is where the
text begins, and `skip` characters of it belong to a link already read. -/
def linksFrom : Nat → Nat → List Char → List (Nat × Nat)
  | _, _, [] => []
  | skip + 1, pos, _ :: rest => linksFrom skip (pos + 1) rest
  | 0, pos, c :: rest =>
    match linkLength? (c :: rest) with
    | some n => (pos, pos + n) :: linksFrom (n - 1) (pos + 1) rest
    | none => linksFrom 0 (pos + 1) rest

/-- The links on the line of `i`. -/
def linksOnLine (t : Text) (i : Nat) : Except Span.Error (List Span) :=
  let start := t.lineStart i
  (linksFrom 0 start ((t.after start).take (t.lineEnd i - start))).mapM fun (start, stop) =>
    Span.ofBounds start stop

/-- The link around `s`, else the first on its line. -/
def link? (t : Text) (s : Span) : Except Span.Error (Option Span) := do
  let links ← linksOnLine t s.start
  return (links.find? (·.contains s)).or links.head?

/-! ## Sections -/

/-- A line is a heading: number signs, then a space. -/
def isHeading (line : Text) : Bool :=
  let signs := (line.takeWhile (· == '#')).length
  decide (0 < signs) && (line.drop signs).head? == some ' '

/-- The last line of the section that line `n` lies in. -/
def lastLine (t : Text) (n : Nat) : Nat :=
  match (List.range t.lineCount).find? fun m => decide (n < m) && isHeading (t.lineContent m) with
  | some heading => heading - 1
  | none => t.lineCount - 1

/-- The end of the last line with content from line `n` to the end of its section;
the end of line `n` where there is none. -/
def sectionEnd (t : Text) (s : Span) : Nat :=
  let n := t.lineOf s.stop
  let lines := (List.range (lastLine t n + 1)).drop n
  let last :=
    (lines.reverse.find? fun m => (Text.indentation (t.lineContent m)).isSome).getD n
  t.lineEnd (t.startOfLine last)

/-! ## Laws -/

theorem partLength?_le {stop : Char} {t : List Char} {n : Nat} (h : partLength? stop t = some n) :
    n ≤ t.length := by
  simp only [partLength?] at h
  split at h
  · rename_i hc
    cases h
    exact (List.getElem?_eq_some_iff.1 hc).1
  · cases h

/-- A link ends in the text it was read from. -/
theorem linkLength?_le {t : List Char} {n : Nat} (h : linkLength? t = some n) : n ≤ t.length := by
  unfold linkLength? at h
  split at h
  · rename_i rest
    obtain ⟨label, hl, h⟩ := Option.bind_eq_some_iff.1 h
    split at h
    · rename_i address heq
      obtain ⟨n, ha, rfl⟩ := Option.map_eq_some_iff.1 h
      have h₁ := partLength?_le ha
      have h₂ := congrArg List.length heq
      simp only [List.length_drop, List.length_cons] at h₂ ⊢
      omega
    · cases h
  · cases h

end VoiceEdit.Markdown
