import VoiceEdit.Proofs.Code.Progress
import VoiceEdit.Proofs.Modifier.Within
import VoiceEdit.Proofs.Prose.Progress
import VoiceEdit.Proofs.Word.Progress

/-!
# Modifiers that step go on

A modifier that steps to the next or the previous structure of its kind comes to one that
ends behind, or starts before, what it was given, or it keeps what it was given. So its
repetitions neither turn back nor stall: each passes at least one character, until there is
nothing more to step to and the target stays.

Results:

* `find_passes`, `step_passes`: what one step finds lies in its direction.
* `apply_at_rest`: steps that come to rest at once.
* `steps_pass`: after any number of steps the target has gone as many characters or is at
  rest.
* `apply_advances`, `apply_retreats`: modifiers that step forwards and backwards.
-/
namespace VoiceEdit

/-! ## Directions -/

/-- `found` ends `n` characters or more behind the end of `s`, or starts so many before its
start. -/
def Direction.Passes (d : Direction) (n : Nat) (s found : Span) : Prop :=
  match d with
  | .next => s.stop + n ≤ found.stop
  | .previous => found.start + n ≤ s.start

namespace Direction

variable {d : Direction} {a b c : Span} {m n : Nat}

theorem passes_zero : d.Passes 0 a a := by
  cases d <;> exact Nat.le_refl _

theorem Passes.trans (h : d.Passes m a b) (h' : d.Passes n b c) : d.Passes (m + n) a c := by
  cases d <;> simp only [Passes] at * <;> omega

theorem Passes.mono (h : d.Passes n a b) (hle : m ≤ n) : d.Passes m a b := by
  cases d <;> simp only [Passes] at * <;> omega

end Direction

namespace Modifier

/-- The direction a kind steps in, for the kinds that do. Comments step forwards only: the
body of the previous one may be empty and end where it is looked for from. -/
def Kind.direction? : Kind → Option Direction
  | .token d => some d
  | .search _ .next | .comment .next | .literal .next | .call .next | .argument .next
  | .brackets .next | .sentence _ .next => some .next
  | .search _ .previous | .literal .previous | .call .previous | .argument .previous
  | .brackets .previous | .sentence _ .previous => some .previous
  | _ => none

variable {m : Modifier} {env : Setting} {t : Text} {s : Span} {target found : Target}
  {d : Direction}

/-! ## One step -/

theorem eq_of_select {o : Option Span} (h : selectSpan (.ok o) = .ok (some found)) :
    o = some found.span := by
  obtain ⟨o', ho', hfound⟩ := map_eq_ok.1 h
  cases ho'
  obtain ⟨s, rfl, rfl⟩ := Option.map_eq_some_iff.1 hfound
  rfl

theorem exists_of_targetOf {α : Type} {f : α → Except Span.Error Target} {o : Option α}
    (h : targetOf f o = .ok (some found)) : ∃ a, o = some a ∧ f a = .ok found := by
  cases o with
  | none => cases h
  | some a =>
    obtain ⟨target, hf, heq⟩ := map_eq_ok.1 h
    cases heq
    exact ⟨a, rfl, hf⟩

theorem targetOf_some {α : Type} {f : α → Except Span.Error Target} {a : α} (h : f a = .ok found) :
    targetOf f (some a) = .ok (some found) := by
  rw [targetOf, h]
  rfl

theorem eq_none_of_targetOf {α : Type} {f : α → Except Span.Error Target} {o : Option α}
    (h : targetOf f o = .ok none) : o = none := by
  cases o with
  | none => rfl
  | some a =>
    obtain ⟨target, -, heq⟩ := map_eq_ok.1 h
    cases heq

/-- What a modifier finds lies in its direction. -/
theorem find_passes (hd : m.kind.direction? = some d) (hs : s.start ≤ t.length)
    (h : m.find env t s = .ok (some found)) : d.Passes 1 s found.span := by
  unfold find at h
  generalize m.kind = kind at hd h
  cases kind with
  | token d' =>
    cases hd
    cases d with
    | next => exact Token.next_stop h
    | previous => exact Token.previous_start hs h
  | search method proximity =>
    cases proximity with
    | closest => cases hd
    | next =>
      cases hd
      exact Search.find_next_stop h
    | previous =>
      cases hd
      exact Search.find_previous_start h
  | comment o =>
    cases o with
    | next =>
      cases hd
      obtain ⟨o, hc, h⟩ := bind_eq_ok.1 h
      obtain ⟨c, rfl, hf⟩ := exists_of_targetOf h
      exact Comment.next_stop hc hf
    | here | first | previous => cases hd
  | literal o =>
    cases o with
    | next =>
      cases hd
      obtain ⟨o, hl, h⟩ := bind_eq_ok.1 h
      obtain ⟨l, rfl, hf⟩ := exists_of_targetOf h
      exact Literal.next_stop hl hf
    | previous =>
      cases hd
      obtain ⟨o, hl, h⟩ := bind_eq_ok.1 h
      obtain ⟨l, rfl, hf⟩ := exists_of_targetOf h
      exact Literal.previous_start hl hf
    | here | first => cases hd
  | call o =>
    cases o with
    | next =>
      cases hd
      exact Call.next_stop (eq_of_select h)
    | previous =>
      cases hd
      exact Call.previous_start (eq_of_select h)
    | here | first => cases hd
  | argument o =>
    cases o with
    | next =>
      cases hd
      exact Argument.next_stop h
    | previous =>
      cases hd
      exact Argument.previous_start hs h
    | here | first => cases hd
  | brackets o =>
    cases o with
    | next =>
      cases hd
      exact Bracket.next_stop (eq_of_select h)
    | previous =>
      cases hd
      exact Bracket.previous_start (eq_of_select h)
    | here | first => cases hd
  | sentence k step =>
    cases step with
    | here => cases hd
    | next =>
      cases hd
      exact Sentence.next_stop h
    | previous =>
      cases hd
      exact Sentence.previous_start hs h
  | indentedBlock | bracedBlock | link | sectionEnd | line | lineStart | lineEnd
  | betweenWhitespace => cases hd

/-- One step keeps its target or passes a character. -/
theorem step_passes (hd : m.kind.direction? = some d) (ht : target.Within t)
    (h : m.step env t target = .ok found) : found = target ∨ d.Passes 1 target.span found.span := by
  have hs : target.span.start ≤ t.length :=
    Nat.le_trans target.span.start_le_stop ht.span_stop_le
  rcases step_eq_ok_iff.1 h with hfind | ⟨-, -, rfl⟩
  · exact .inr (find_passes hd hs hfind)
  · exact .inl rfl

/-! ## Any number of steps -/

/-- A target that a step keeps stays where it is. -/
theorem steps_at_rest (n : Nat) (ht : target.Within t) (hrest : m.step env t target = .ok target) :
    m.steps env t n target = .ok target := by
  induction n with
  | zero => rfl
  | succ n ih =>
    rw [steps_succ]
    exact bind_eq_ok.2 ⟨target, hrest, bind_eq_ok.2 ⟨(), checkWithin_eq_ok_iff.2 ht, ih⟩⟩

/-- Where the first step comes to rest, any number of them do. -/
theorem apply_at_rest (hrep : m.repetitions ≠ 0) (hne : t ≠ []) (ht : target.Within t)
    (hstep : m.step env t target = .ok found) (hfound : found.Within t)
    (hrest : m.step env t found = .ok found) : m.apply env t target = .ok found := by
  obtain ⟨n, hn⟩ := Nat.exists_eq_succ_of_ne_zero hrep
  rw [apply_eq_steps hrep hne ht, hn, steps_succ]
  exact bind_eq_ok.2 ⟨found, hstep,
    bind_eq_ok.2 ⟨(), checkWithin_eq_ok_iff.2 hfound, steps_at_rest n hfound hrest⟩⟩

/-- By induction on the steps: where the first keeps the target all of them do, and where it
passes a character the rest go on from there. -/
theorem steps_pass {n : Nat} (hd : m.kind.direction? = some d) (ht : target.Within t)
    (h : m.steps env t n target = .ok found) :
    (found = target ∨ d.Passes 1 target.span found.span) ∧
      (d.Passes n target.span found.span ∨ m.step env t found = .ok found) := by
  induction n generalizing target with
  | zero =>
    cases h
    exact ⟨.inl rfl, .inl Direction.passes_zero⟩
  | succ n ih =>
    rw [steps_succ] at h
    obtain ⟨next, hstep, hrest⟩ := bind_eq_ok.1 h
    obtain ⟨_, hnext, hrest⟩ := bind_eq_ok.1 hrest
    rcases step_passes hd ht hstep with hkept | hpass
    · rw [hkept] at hstep hrest
      rw [steps_at_rest n ht hstep] at hrest
      cases hrest
      exact ⟨.inl rfl, .inr hstep⟩
    · obtain ⟨hgone, hrun⟩ := ih (checkWithin_eq_ok_iff.1 hnext) hrest
      refine ⟨.inr ?_, hrun.imp_left fun hrun => ?_⟩
      · rcases hgone with rfl | hmore
        · exact hpass
        · exact (hpass.trans hmore).mono (Nat.le_add_right _ _)
      · rw [Nat.add_comm]
        exact hpass.trans hrun

theorem apply_passes (hd : m.kind.direction? = some d) (h : m.apply env t target = .ok found) :
    (found = target ∨ d.Passes 1 target.span found.span) ∧
      (d.Passes m.repetitions target.span found.span ∨ m.apply env t found = .ok found) := by
  have hrep := repetitions_ne_zero h
  have hfound := apply_within h
  obtain ⟨ht, hsteps⟩ := (apply_eq_ok_iff hrep).1 h
  by_cases hempty : t = []
  · rw [if_pos hempty] at hsteps
    subst hsteps
    exact ⟨.inl rfl, .inr h⟩
  · rw [if_neg hempty] at hsteps
    obtain ⟨hgone, hrun⟩ := steps_pass hd ht hsteps
    refine ⟨hgone, hrun.imp_right fun hrest => (apply_eq_ok_iff hrep).2 ⟨hfound, ?_⟩⟩
    rw [if_neg hempty]
    exact steps_at_rest _ hfound hrest

/-! ## Forwards and backwards -/

/-- **Forward modifiers advance.** A modifier that steps forwards fails, or keeps its
target, or answers one that ends behind it; and with every repetition it passes a character
more, unless it has come to a target that it keeps. -/
theorem apply_advances (hd : m.kind.direction? = some .next)
    (h : m.apply env t target = .ok found) :
    (found = target ∨ target.span.stop < found.span.stop) ∧
      (target.span.stop + m.repetitions ≤ found.span.stop ∨ m.apply env t found = .ok found) :=
  apply_passes hd h

/-- From pair to pair. -/
theorem apply_advances_brackets :
    let m : Modifier := { kind := .brackets .next, repetitions := 2 }
    let env : Setting := ⟨Settings.default, .none⟩
    let t : Text := ['(', 'a', ')', ' ', '[', 'b', ']']
    let target : Target := .ofSpan (.point 0)
    let found : Target := .ofSpan ⟨4, 7, by decide, by decide⟩
    m.kind.direction? = some .next ∧ m.apply env t target = .ok found ∧
      (found = target ∨ target.span.stop < found.span.stop) ∧
      (target.span.stop + m.repetitions ≤ found.span.stop ∨ m.apply env t found = .ok found) := by
  intro m env t target found
  have hd : m.kind.direction? = some .next := by rfl
  have happly : m.apply env t target = .ok found := by rfl
  exact ⟨hd, happly, apply_advances hd happly⟩

/-- **Backward modifiers retreat.** A modifier that steps backwards fails, or keeps its
target, or answers one that starts before it; and with every repetition it passes a
character more, unless it has come to a target that it keeps. -/
theorem apply_retreats (hd : m.kind.direction? = some .previous)
    (h : m.apply env t target = .ok found) :
    (found = target ∨ found.span.start < target.span.start) ∧
      (found.span.start + m.repetitions ≤ target.span.start ∨ m.apply env t found = .ok found) :=
  apply_passes hd h

/-- From call to call. -/
theorem apply_retreats_calls :
    let m : Modifier := { kind := .call .previous, repetitions := 2 }
    let env : Setting := ⟨Settings.default, .none⟩
    let t : Text := ['f', '(', 'a', ')', ' ', 'g', '(', 'b', ')']
    let target : Target := .ofSpan (.point 9)
    let found : Target := .ofSpan ⟨0, 4, by decide, by decide⟩
    m.kind.direction? = some .previous ∧ m.apply env t target = .ok found ∧
      (found = target ∨ found.span.start < target.span.start) ∧
      (found.span.start + m.repetitions ≤ target.span.start ∨ m.apply env t found = .ok found) := by
  intro m env t target found
  have hd : m.kind.direction? = some .previous := by rfl
  have happly : m.apply env t target = .ok found := by rfl
  exact ⟨hd, happly, apply_retreats hd happly⟩

end Modifier

end VoiceEdit
