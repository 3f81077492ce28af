/-!
# Spans of characters

A `Span` is a half-open range of character offsets, `start ≤ stop`. A span that holds
characters ends within `Span.limit`, and `ofBounds` builds none that does not; a cursor
(`point`) may stand anywhere.

Results:

* `ofBounds_eq_ok_iff`: `ofBounds` accepts exactly the ordered bounds within the limit.
* `shift_eq_ok`: moving a span keeps its length.
-/
namespace VoiceEdit

/-- The greatest offset a span built from bounds may have. -/
def Span.limit : Nat := 100000000

/-- The characters at offsets `start ≤ i < stop`. -/
structure Span where
  start : Nat
  stop : Nat
  start_le_stop : start ≤ stop
  stop_le_limit : start < stop → stop ≤ Span.limit
deriving DecidableEq, Repr

namespace Span

/-- Why a span was refused. -/
inductive Error where
  | invalid (start stop : Int)
  | outOfBounds (stop length : Nat)
deriving DecidableEq, Repr

def Error.message : Error → String
  | .invalid start stop => s!"invalid text range {start}..{stop}"
  | .outOfBounds stop length => s!"range end {stop} is out of bounds for text length {length}"

/-- An offset as errors report it: the nearest signed 64-bit integer. -/
def reported (n : Int) : Int := max (-9223372036854775808) (min n 9223372036854775807)

/-- The span between two offsets in this order. -/
def ofBounds (start stop : Nat) : Except Error Span :=
  if h : start ≤ stop ∧ stop ≤ limit then .ok ⟨start, stop, h.1, fun _ => h.2⟩
  else .error (.invalid (reported start) (reported stop))

/-- The span between two signed offsets, refused with the offsets as given when
one of them is negative. -/
def ofInts (start stop : Int) : Except Error Span :=
  if start < 0 ∨ stop < 0 then .error (.invalid start stop)
  else ofBounds start.toNat stop.toNat

/-- The empty span, a cursor, at `pos`. -/
def point (pos : Nat) : Span := ⟨pos, pos, Nat.le_refl _, fun h => absurd h (Nat.lt_irrefl _)⟩

/-- The span between two offsets in either order. -/
def spanning (a b : Nat) : Except Error Span := ofBounds (min a b) (max a b)

def length (s : Span) : Nat := s.stop - s.start

def isEmpty (s : Span) : Bool := s.start == s.stop

/-- `other` lies in `s`. -/
def contains (s other : Span) : Bool := decide (s.start ≤ other.start) && decide (other.stop ≤ s.stop)

/-- `pos` lies in `s` or at one of its edges. -/
def touches (s : Span) (pos : Nat) : Bool := decide (s.start ≤ pos) && decide (pos ≤ s.stop)

/-- The spans share a character, or an empty one lies strictly inside the other. -/
def intersects (s other : Span) : Bool :=
  decide (s.start < other.stop) && decide (other.start < s.stop)

/-- Refuses a span that ends beyond a text of `length` characters. -/
def checkWithin (s : Span) (length : Nat) : Except Error Unit :=
  if s.stop > length then .error (.outOfBounds s.stop length) else .ok ()

/-- Both ends moved by `delta`. -/
def shift (s : Span) (delta : Int) : Except Error Span :=
  if s.start + delta < 0 then .error (.invalid (reported (s.start + delta)) (reported (s.stop + delta)))
  else ofBounds (s.start + delta).toNat (s.stop + delta).toNat

/-- By start, then by stop. -/
def order (a b : Span) : Ordering := (compare a.start b.start).then (compare a.stop b.stop)

/-- The offset of the last character, or of the cursor when there is none. -/
def lastOffset (s : Span) : Nat := if s.isEmpty then s.start else s.stop - 1

/-! ## Laws -/

@[ext] theorem ext {a b : Span} (h₁ : a.start = b.start) (h₂ : a.stop = b.stop) : a = b := by
  cases a; cases b; cases h₁; cases h₂; rfl

@[simp] theorem start_point (pos : Nat) : (point pos).start = pos := rfl
@[simp] theorem stop_point (pos : Nat) : (point pos).stop = pos := rfl
@[simp] theorem isEmpty_point (pos : Nat) : (point pos).isEmpty = true := by simp [isEmpty]

theorem ofBounds_eq_ok_iff {start stop : Nat} {s : Span} :
    ofBounds start stop = .ok s ↔ s.start = start ∧ s.stop = stop ∧ stop ≤ limit := by
  unfold ofBounds
  split
  · rename_i h
    simp only [Except.ok.injEq]
    constructor
    · rintro rfl; exact ⟨rfl, rfl, h.2⟩
    · rintro ⟨h₁, h₂, -⟩; exact Span.ext h₁.symm h₂.symm
  · rename_i h
    simp only [reduceCtorEq, false_iff, not_and]
    intro h₁ h₂ h₃
    exact h ⟨by have := s.start_le_stop; omega, h₃⟩

theorem ofBounds_eq_ok {start stop : Nat} (h : start ≤ stop) (hl : stop ≤ limit) :
    ofBounds start stop = .ok ⟨start, stop, h, fun _ => hl⟩ := by simp [ofBounds, h, hl]

theorem bounds_of_toOption {start stop : Nat} {s : Span}
    (h : (ofBounds start stop).toOption = some s) : s.start = start ∧ s.stop = stop := by
  cases hb : ofBounds start stop with
  | error err => rw [hb] at h; cases h
  | ok s' =>
    rw [hb] at h
    cases h
    have := ofBounds_eq_ok_iff.1 hb
    exact ⟨this.1, this.2.1⟩

theorem checkWithin_eq_ok_iff {s : Span} {n : Nat} : s.checkWithin n = .ok () ↔ s.stop ≤ n := by
  unfold checkWithin; split <;> simp <;> omega

theorem contains_iff {a b : Span} : a.contains b = true ↔ a.start ≤ b.start ∧ b.stop ≤ a.stop := by
  simp [contains]

theorem touches_iff {s : Span} {pos : Nat} : s.touches pos = true ↔ s.start ≤ pos ∧ pos ≤ s.stop := by
  simp [touches]

theorem intersects_iff {a b : Span} :
    a.intersects b = true ↔ a.start < b.stop ∧ b.start < a.stop := by
  simp [intersects]

theorem isEmpty_iff {s : Span} : s.isEmpty = true ↔ s.start = s.stop := by simp [isEmpty]

theorem shift_eq_ok {s r : Span} {delta : Int} (h : s.shift delta = .ok r) :
    (r.start : Int) = s.start + delta ∧ (r.stop : Int) = s.stop + delta := by
  unfold shift at h
  split at h
  · cases h
  · obtain ⟨h₁, h₂, -⟩ := ofBounds_eq_ok_iff.1 h
    have := s.start_le_stop
    omega

end Span

end VoiceEdit
