import VoiceEdit.Span

/-!
# Targets

What a command acts on: the span it selects, and where deleting should take more than
that (a word with the comma after it) the wider span a deletion removes.
-/
namespace VoiceEdit

/-- A selected span, with the wider span that goes when it is deleted. -/
structure Target where
  span : Span
  removal : Option Span := none
  span_in_removal : ∀ r ∈ removal, r.contains span = true := by simp
deriving DecidableEq, Repr

namespace Target

/-- A target whose deletion removes what it selects. -/
def ofSpan (span : Span) : Target := { span }

/-- A target with a removal, refused unless the removal contains the span. -/
def withRemoval (span removal : Span) : Except Span.Error Target :=
  if h : removal.contains span = true then .ok ⟨span, some removal, by simpa using h⟩
  else .error (.invalid (Span.reported removal.start) (Span.reported removal.stop))

def withRemoval? (span : Span) : Option Span → Except Span.Error Target
  | some removal => withRemoval span removal
  | none => .ok (ofSpan span)

/-- What a deletion removes. -/
def removed (t : Target) : Span := t.removal.getD t.span

/-- Refuses a target that reaches beyond a text of `length` characters. -/
def checkWithin (t : Target) (length : Nat) : Except Span.Error Unit := do
  t.span.checkWithin length
  t.removed.checkWithin length

/-! ## Laws -/

@[simp] theorem span_ofSpan (s : Span) : (ofSpan s).span = s := rfl
@[simp] theorem removal_ofSpan (s : Span) : (ofSpan s).removal = none := rfl
@[simp] theorem removed_ofSpan (s : Span) : (ofSpan s).removed = s := rfl

theorem ext {a b : Target} (h₁ : a.span = b.span) (h₂ : a.removal = b.removal) : a = b := by
  cases a; cases b; cases h₁; cases h₂; rfl

theorem withRemoval_eq_ok_iff {s r : Span} {t : Target} :
    withRemoval s r = .ok t ↔ t.span = s ∧ t.removal = some r := by
  unfold withRemoval
  split
  · simp only [Except.ok.injEq]
    constructor
    · rintro rfl; exact ⟨rfl, rfl⟩
    · rintro ⟨h₁, h₂⟩; exact ext h₁.symm h₂.symm
  · rename_i h
    simp only [reduceCtorEq, false_iff, not_and]
    intro h₁ h₂
    exact h (h₁ ▸ t.span_in_removal r h₂)

theorem withRemoval?_eq_ok_iff {s : Span} {r : Option Span} {t : Target} :
    withRemoval? s r = .ok t ↔ t.span = s ∧ t.removal = r := by
  cases r with
  | some r => exact withRemoval_eq_ok_iff
  | none =>
    simp only [withRemoval?, Except.ok.injEq]
    constructor
    · rintro rfl; exact ⟨rfl, rfl⟩
    · rintro ⟨h₁, h₂⟩; exact ext h₁.symm h₂.symm

/-- A removal contains the span it belongs to. -/
theorem contains_removed (t : Target) : t.removed.contains t.span = true := by
  unfold removed
  cases h : t.removal with
  | none => simp [Span.contains]
  | some r => exact t.span_in_removal r h

end Target

end VoiceEdit
