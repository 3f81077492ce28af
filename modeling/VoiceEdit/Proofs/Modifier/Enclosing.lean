import VoiceEdit.Proofs.Code.Braces
import VoiceEdit.Proofs.Code.Enclosing
import VoiceEdit.Proofs.Modifier.Answers
import VoiceEdit.Proofs.Modifier.Rest

/-!
# Brackets and braces around a target

Of all pairs of brackets around a target the modifier for brackets takes the innermost, the one
that opens last; repeated, it goes on to pairs further out. The modifier for braces takes the
innermost body that holds its target and more. It looks at bodies, not at braces: from right
behind a brace at the end of a line, or from the indentation of the brace that closes, the block
there is passed over.

Results:

* `Grows.trans`, `step_grows`, `steps_grow`: brackets lead outwards, once and repeated.
* `apply_brackets_innermost`: the pair of brackets that is taken.
* `apply_braces_innermost`: the body of braces that is taken.
* `apply_braces_passes_over`: a cursor between two braces whose body is not taken.
-/
namespace VoiceEdit

/-- The target is what goes from `start` to `stop`, and nothing more when it is deleted. -/
structure Target.Spans (f : Target) (start stop : Nat) : Prop where
  start_eq : f.span.start = start
  stop_eq : f.span.stop = stop
  removal_eq : f.removal = none

namespace Modifier

open VoiceEdit.Bracket (Encloses Innermost marks)
open Block (IsBody Holds InnermostBody)

variable {m : Modifier} {env : Setting} {t : Text} {target found : Target} {o c start stop : Nat}

theorem of_selectSpan_eq_none {r : Except Span.Error (Option Span)}
    (h : selectSpan r = .ok none) : r = .ok none := by
  obtain ⟨o, ho, hnone⟩ := map_eq_ok.1 h
  rw [Option.map_eq_none_iff] at hnone
  rw [ho, hnone]

/-! ## Brackets -/

/-- `found` is `target` itself, or starts before it and ends no sooner. -/
def Grows (target found : Target) : Prop :=
  found = target ∨ found.span.start < target.span.start ∧ target.span.stop ≤ found.span.stop

theorem Grows.trans {next : Target} (h : Grows target next) (h' : Grows next found) :
    Grows target found := by
  rcases h with rfl | h
  · exact h'
  · rcases h' with rfl | h'
    · exact .inr h
    · exact .inr (by omega)

theorem find_brackets (hkind : m.kind = .brackets .here) (s : Span) :
    m.find env t s = selectSpan (Bracket.around? t s) := by
  simp only [find, hkind]

/-- What is found as the brackets around a span is their innermost pair. -/
theorem innermost_of_find (hkind : m.kind = .brackets .here)
    (h : m.find env t target.span = .ok (some found)) :
    ∃ o c, Innermost (marks t) target.span o c ∧ found.Spans o (c + 1) := by
  rw [find_brackets hkind] at h
  obtain ⟨span, hspan, rfl⟩ := exists_of_selectSpan h
  rcases Bracket.around?_spec t target.span with ⟨o, c, hinner, heq⟩ | ⟨-, heq⟩
  · rw [heq] at hspan
    obtain ⟨pair, hpair, hspan⟩ := map_eq_ok.1 hspan
    cases hspan
    obtain ⟨rfl, hstop, -⟩ := Span.ofBounds_eq_ok_iff.1 hpair
    exact ⟨_, c, hinner, rfl, hstop, rfl⟩
  · rw [heq] at hspan
    cases hspan

/-- Where nothing is found, no pair is around the span. -/
theorem not_encloses_of_find (hkind : m.kind = .brackets .here)
    (h : m.find env t target.span = .ok none) (o c : Nat) :
    ¬Encloses (marks t) target.span o c := by
  rw [find_brackets hkind] at h
  rcases Bracket.around?_spec t target.span with ⟨_, _, -, heq⟩ | ⟨hnone, -⟩
  · obtain ⟨pair, -, hsome⟩ := map_eq_ok.1 (heq ▸ of_selectSpan_eq_none h)
    cases hsome
  · exact hnone o c

theorem step_grows (hkind : m.kind = .brackets .here) (h : m.step env t target = .ok found) :
    Grows target found := by
  rcases step_eq_ok_iff.1 h with hfind | ⟨-, -, rfl⟩
  · obtain ⟨o, c, hinner, hspans⟩ := innermost_of_find hkind hfind
    have hlt := hinner.lt_start
    have hle := hinner.stop_le
    exact .inr (by rw [hspans.start_eq, hspans.stop_eq]; omega)
  · exact .inl rfl

theorem steps_grow {n : Nat} (hkind : m.kind = .brackets .here)
    (h : m.steps env t n target = .ok found) : Grows target found := by
  induction n generalizing target with
  | zero =>
    cases h
    exact .inl rfl
  | succ n ih =>
    rw [steps_succ] at h
    obtain ⟨next, hstep, h⟩ := bind_eq_ok.1 h
    obtain ⟨_, -, h⟩ := bind_eq_ok.1 h
    exact (step_grows hkind hstep).trans (ih h)

/-- **The innermost brackets.** Whatever brackets a text holds, balanced or not: where no pair is
around the target, the modifier keeps it; else it answers the pair that opens last of all that
are. Any number of repetitions keep the target or come to brackets outside it. -/
theorem apply_brackets_innermost (env : Setting) (hkind : m.kind = .brackets .here)
    (ht : target.removed.stop ≤ t.length) :
    (m.repetitions = 1 →
      ((∀ o c, ¬Encloses (marks t) target.span o c) → m.apply env t target = .ok target) ∧
      ∀ o c, Innermost (marks t) target.span o c →
        Answers t (m.apply env t target) (·.Spans o (c + 1))) ∧
    ∀ found, m.apply env t target = .ok found → Grows target found := by
  have hmust : m.kind.mustFind = false := by
    rw [hkind]
    rfl
  refine ⟨fun hrep => ⟨fun hnone => ?_, fun o c hinner => ?_⟩, fun found h => ?_⟩
  · refine apply_of_find_eq_none hrep hmust ht ?_
    rcases Bracket.around?_spec t target.span with ⟨o, c, hinner, -⟩ | ⟨-, heq⟩
    · exact absurd hinner.toEncloses (hnone o c)
    · rw [find_brackets hkind, heq]
      rfl
  · have hlt := hinner.lt_length
    have hne : t ≠ [] := by
      rintro rfl
      simp [marks, Bracket.marksFrom] at hlt
    refine apply_answers hrep hmust ht (fun hlen => ?_) fun found h => ?_
    · rw [find_brackets hkind]
      exact finds_selectSpan (Bracket.finds_around? hlen)
    · rcases find_of_apply hrep h with hfind | ⟨hempty | hfind, -⟩
      · obtain ⟨o', c', hinner', hspans⟩ := innermost_of_find hkind hfind
        obtain ⟨rfl, rfl⟩ := hinner.unique hinner'
        exact hspans
      · exact absurd hempty hne
      · exact absurd hinner.toEncloses (not_encloses_of_find hkind hfind o c)
  · obtain ⟨-, h⟩ := (apply_eq_ok_iff (repetitions_ne_zero h)).1 h
    by_cases hempty : t = []
    · rw [if_pos hempty] at h
      exact .inl h
    · rw [if_neg hempty] at h
      exact steps_grow hkind h

/-- In `(a[b)]` the square brackets are around what their kind does not count. -/
theorem apply_brackets_innermost_crossed :
    let m : Modifier := { kind := .brackets .here }
    let env : Setting := ⟨Settings.default, .none⟩
    let t : Text := ['(', 'a', '[', 'b', ')', ']']
    let target : Target := .ofSpan ⟨3, 5, by decide, by decide⟩
    m.kind = .brackets .here ∧ target.removed.stop ≤ t.length ∧ m.repetitions = 1 ∧
      Innermost (marks t) target.span 2 5 ∧
      ∃ found, m.apply env t target = .ok found ∧ found.Spans 2 6 ∧ Grows target found := by
  intro m env t target
  have ht : target.removed.stop ≤ t.length := by decide
  have hinner : Innermost (marks t) target.span 2 5 := by
    refine ⟨⟨⟨.square, by decide⟩, by decide, by decide, by decide⟩, fun o' c' h => ?_⟩
    exact Nat.le_of_lt_succ h.lt_start
  obtain ⟨hpair, hgrows⟩ := apply_brackets_innermost (m := m) env rfl ht
  rcases (hpair rfl).2 2 5 hinner with ⟨found, happly, hspans⟩ | ⟨hlong, -⟩
  · exact ⟨rfl, ht, rfl, hinner, found, happly, hspans, hgrows found happly⟩
  · exact absurd hlong (by decide)

/-! ## Braces -/

theorem find_braces (hkind : m.kind = .bracedBlock) (s : Span) :
    m.find env t s = selectSpan (Block.braced? t s) := by
  simp only [find, hkind]

/-- What is found as the body of braces around a span is the innermost. -/
theorem innermostBody_of_find (hkind : m.kind = .bracedBlock)
    (h : m.find env t target.span = .ok (some found)) :
    found.removal = none ∧
      ∃ o c, InnermostBody t target.span o c found.span.start found.span.stop := by
  rw [find_braces hkind] at h
  obtain ⟨span, hspan, rfl⟩ := exists_of_selectSpan h
  rcases Block.braced?_spec hspan with ⟨_, o, c, heq, hinner⟩ | ⟨heq, -⟩
  · cases heq
    exact ⟨rfl, o, c, hinner⟩
  · cases heq

/-- Where nothing is found, no body holds the span and more. -/
theorem not_holds_of_find (hkind : m.kind = .bracedBlock)
    (h : m.find env t target.span = .ok none) (o c start stop : Nat) :
    ¬Holds t target.span o c start stop := by
  rw [find_braces hkind] at h
  rcases Block.braced?_spec (of_selectSpan_eq_none h) with ⟨_, _, _, heq, -⟩ | ⟨-, hnone⟩
  · cases heq
  · exact hnone o c start stop

/-- **The innermost body of braces.** Whatever braces a text holds, balanced or not: of all pairs
of braces whose body holds the target and more than the target, the modifier answers the body
of those that open last; and where there are none it keeps the target. -/
theorem apply_braces_innermost (env : Setting) (hkind : m.kind = .bracedBlock)
    (hrep : m.repetitions = 1) (ht : target.removed.stop ≤ t.length) :
    (∀ o c start stop, InnermostBody t target.span o c start stop →
      Answers t (m.apply env t target) (·.Spans start stop)) ∧
    ((∀ o c start stop, ¬Holds t target.span o c start stop) →
      Answers t (m.apply env t target) (· = target)) := by
  have hmust : m.kind.mustFind = false := by
    rw [hkind]
    rfl
  have hfinds (hlen : t.length ≤ Span.limit) : Finds t (m.find env t target.span) := by
    rw [find_braces hkind]
    exact finds_selectSpan (Block.finds_braced? hlen)
  refine ⟨fun o c start stop hinner => ?_, fun hnone => ?_⟩
  · have hne : t ≠ [] := List.ne_nil_of_length_pos (Nat.zero_lt_of_lt hinner.pair.lt_length)
    refine apply_answers hrep hmust ht hfinds fun found h => ?_
    rcases find_of_apply hrep h with hfind | ⟨hempty | hfind, -⟩
    · obtain ⟨hremoval, o', c', hinner'⟩ := innermostBody_of_find hkind hfind
      obtain ⟨rfl, rfl⟩ := hinner.unique hinner'
      exact ⟨rfl, rfl, hremoval⟩
    · exact absurd hempty hne
    · exact absurd hinner.toHolds (not_holds_of_find hkind hfind o c start stop)
  · refine apply_answers hrep hmust ht hfinds fun found h => ?_
    rcases find_of_apply hrep h with hfind | ⟨-, rfl⟩
    · obtain ⟨-, o, c, hinner⟩ := innermostBody_of_find hkind hfind
      exact absurd hinner.toHolds (hnone o c _ _)
    · rfl

/-- In `{ {a} }` the inner body is selected already, and the outer one is next. -/
theorem apply_braces_innermost_outwards :
    let m : Modifier := { kind := .bracedBlock }
    let env : Setting := ⟨Settings.default, .none⟩
    let t : Text := ['{', ' ', '{', 'a', '}', ' ', '}']
    let target : Target := .ofSpan ⟨3, 4, by decide, by decide⟩
    m.kind = .bracedBlock ∧ m.repetitions = 1 ∧ target.removed.stop ≤ t.length ∧
      InnermostBody t target.span 0 6 2 5 ∧
      ∃ found, m.apply env t target = .ok found ∧ found.Spans 2 5 := by
  intro m env t target
  have ht : target.removed.stop ≤ t.length := by decide
  have hinner : InnermostBody t target.span 0 6 2 5 := by
    refine ⟨⟨by decide, ⟨⟨2, ⟨by decide, by decide, by decide, by decide⟩, by decide⟩, by decide,
      by decide, by decide, by decide⟩, by decide, by decide, by decide⟩, ?_⟩
    intro o' c' start' stop' h
    have hmem : o' ∈ [2, 0] := h.mem_groupsAround
    rcases List.mem_cons.1 hmem with rfl | hmem
    · -- The body of the inner braces is the target and no more.
      have hbody : IsBody t 2 4 3 4 :=
        ⟨⟨3, ⟨by decide, by decide, by decide, by decide⟩, by decide⟩, by decide, by decide,
          by decide, by decide⟩
      have hpair : Pairs (· == '{') (· == '}') t 2 4 := by decide
      cases hpair.unique Block.not_closes_of_opens h.pair
      obtain ⟨rfl, rfl⟩ := hbody.unique h.body
      exact absurd h.more (by decide)
    · exact Nat.le_of_eq (List.mem_singleton.1 hmem)
  rcases (apply_braces_innermost (m := m) env rfl rfl ht).1 0 6 2 5 hinner with hfound | ⟨hlong, -⟩
  · exact ⟨rfl, rfl, ht, hinner, hfound⟩
  · exact absurd hlong (by decide)

/-- A cursor between two braces, but before their body or behind it, keeps the target. -/
theorem apply_braces_passes_over :
    let m : Modifier := { kind := .bracedBlock }
    let env : Setting := ⟨Settings.default, .none⟩
    let t : Text := ['{', '\n', 'a', '\n', ' ', '}']
    Pairs (· == '{') (· == '}') t 0 5 ∧ IsBody t 0 5 2 4 ∧
      m.apply env t (.ofSpan (.point 1)) = .ok (.ofSpan (.point 1)) ∧
      m.apply env t (.ofSpan (.point 5)) = .ok (.ofSpan (.point 5)) := by
  intro m env t
  refine ⟨by decide, ⟨⟨1, ⟨by decide, by decide, by decide, by decide⟩, by decide⟩, by decide,
    by decide, by decide, by decide⟩, rfl, rfl⟩

end Modifier

end VoiceEdit
