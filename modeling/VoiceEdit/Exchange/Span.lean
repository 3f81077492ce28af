import VoiceEdit.Exchange.Record
import VoiceEdit.Target

/-!
# Spans and targets in JSON

A span is written with its `start` and `end`, a target with its `text_range` and, where
deleting takes more, its `deletion_range`. Reading checks what building one checks.

Results:

* `spanOf_ofSpan`, `targetOf_ofTarget`: what was written within the limit is read back.
* `le_of_spanOf`: a span that was read lies within the limit.
-/
namespace VoiceEdit.Exchange

def spanNames : List String := ["start", "end"]

def ofSpan (s : Span) : Json := .obj [("start", .integer s.start), ("end", .integer s.stop)]

def liftSpan {α : Type} (e : Except Span.Error α) : Result α := e.mapError .span

def spanOf (j : Json) : Result Span := do
  let fields ← fieldsOf spanNames j
  let start ← required fields "start" asInt
  let stop ← required fields "end" asInt
  checkSurplus spanNames j
  liftSpan (Span.ofInts start stop)

def targetNames : List String := ["text_range", "deletion_range"]

def ofTarget (t : Target) : Json :=
  .obj [("text_range", ofSpan t.span), ("deletion_range", ofOption ofSpan t.removal)]

/-- The two spans of a target, the first of the record being looked at first: the
fields of an object come in the order of their names. -/
def targetParts (fields : List (String × Json)) : Json → Result (Span × Option Span)
  | .arr _ => do
    let span ← required fields "text_range" spanOf
    let removal ← optional fields "deletion_range" (asOption spanOf) none
    return (span, removal)
  | _ => do
    let removal ← optional fields "deletion_range" (asOption spanOf) none
    let span ← required fields "text_range" spanOf
    return (span, removal)

def targetOf (j : Json) : Result Target := do
  let fields ← fieldsOf targetNames j
  let (span, removal) ← targetParts fields j
  checkSurplus targetNames j
  liftSpan (Target.withRemoval? span removal)

/-! ## Laws -/

@[simp] theorem liftSpan_ok {α : Type} (a : α) : liftSpan (.ok a) = .ok a := rfl

@[simp] theorem liftSpan_error {α : Type} (e : Span.Error) :
    liftSpan (.error e : Except Span.Error α) = .error (.span e) := rfl

theorem spanOf_ofSpan {s : Span} (h : s.stop ≤ Span.limit) : spanOf (ofSpan s) = .ok s := by
  have hs := s.start_le_stop
  have hl : Span.limit < Json.signedLimit := by decide
  have h₁ : asInt (.integer s.start) = .ok (s.start : Int) := asInt_ofNat (by omega)
  have h₂ : asInt (.integer s.stop) = .ok (s.stop : Int) := asInt_ofNat (by omega)
  have h₃ : Span.ofInts s.start s.stop = .ok s := by
    simp only [Span.ofInts, Int.toNat_natCast]
    rw [if_neg (by omega), Span.ofBounds_eq_ok hs h]
  simp [spanOf, ofSpan, fieldsOf, required, checkSurplus, h₁, h₂, h₃, bind,
    Except.bind, List.lookup_cons]

/-- A span that was read lies within the limit. -/
theorem le_of_spanOf {j : Json} {s : Span} (h : spanOf j = .ok s) : s.stop ≤ Span.limit := by
  unfold spanOf at h
  cases hf : fieldsOf spanNames j with
  | error e => simp [hf, bind, Except.bind] at h
  | ok fields =>
    cases h₁ : required fields "start" asInt with
    | error e => simp [hf, h₁, bind, Except.bind] at h
    | ok start =>
      cases h₂ : required fields "end" asInt with
      | error e => simp [hf, h₁, h₂, bind, Except.bind] at h
      | ok stop =>
        cases h₃ : checkSurplus spanNames j with
        | error e => simp [hf, h₁, h₂, h₃, bind, Except.bind] at h
        | ok u =>
          simp only [hf, h₁, h₂, h₃, bind, Except.bind, Span.ofInts] at h
          split at h
          · cases h
          · cases hb : Span.ofBounds start.toNat stop.toNat with
            | error e => simp [hb] at h
            | ok r =>
              simp only [hb, liftSpan_ok, Except.ok.injEq] at h
              obtain ⟨-, h₄, h₅⟩ := Span.ofBounds_eq_ok_iff.1 hb
              rw [← h, h₄]
              exact h₅

theorem targetOf_ofTarget {t : Target} (h : t.removed.stop ≤ Span.limit) :
    targetOf (ofTarget t) = .ok t := by
  have hc := Span.contains_iff.1 t.contains_removed
  have h₁ : spanOf (ofSpan t.span) = .ok t.span := spanOf_ofSpan (by omega)
  have h₂ : asOption spanOf (ofOption ofSpan t.removal) = .ok t.removal := by
    cases hr : t.removal with
    | none => rfl
    | some r =>
      have hr' : t.removed = r := by simp [Target.removed, hr]
      have := spanOf_ofSpan (s := r) (hr' ▸ h)
      simp only [ofOption]
      simp only [ofSpan] at this ⊢
      simp [asOption, this, Functor.map, Except.map]
  have h₃ : Target.withRemoval? t.span t.removal = .ok t :=
    Target.withRemoval?_eq_ok_iff.2 ⟨rfl, rfl⟩
  simp [targetOf, ofTarget, fieldsOf, targetParts, required, optional, checkSurplus, h₁, h₂, h₃,
    bind, Except.bind, pure, Except.pure, List.lookup_cons]

end VoiceEdit.Exchange
