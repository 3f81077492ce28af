import VoiceEdit.Proofs.Code.Delimited
import VoiceEdit.Proofs.Code.Progress

/-!
# Arguments and literals around themselves

An argument is what lies between its boundaries, without the white space at its ends. Only
that white space lies between the boundaries and the ends of what is selected, so the scans
for the boundaries, begun from there, come to the same ones. A literal is selected without
its delimiters, and so a scan from either end begins at one.

Results:

* `Argument.around?_span_eq`: the argument around an argument.
* `Literal.around?_span_eq`: the literal around the contents of a literal.
-/
namespace VoiceEdit

variable {t : Text} {s : Span} {f : Target} {i j n : Nat}

/-! ## Arguments -/

namespace Argument

/-- White space neither groups nor separates. -/
theorem plain_of_isWhitespace {c : Char} (h : Unicode.isWhitespace c = true) :
    isOpenGroup c = false ∧ isCloseGroup c = false ∧ isSeparator c = false := by
  refine ⟨?_, ?_, ?_⟩
  · refine eq_false_of_ne_true fun hopen => ?_
    simp only [isOpenGroup, Bool.or_eq_true, beq_iff_eq] at hopen
    rcases hopen with (rfl | rfl) | rfl <;> revert h <;> decide
  · refine eq_false_of_ne_true fun hclose => ?_
    simp only [isCloseGroup, Bool.or_eq_true, beq_iff_eq] at hclose
    rcases hclose with (rfl | rfl) | rfl <;> revert h <;> decide
  · refine eq_false_of_ne_true fun hsep => ?_
    simp only [isSeparator, Bool.or_eq_true, beq_iff_eq] at hsep
    rcases hsep with rfl | rfl <;> revert h <;> decide

theorem leftBoundary?_succ_of_isWhitespace (h : t.nextIs Unicode.isWhitespace i = true) :
    leftBoundary? t (i + 1) = leftBoundary? t i := by
  obtain ⟨c, hc, hspace⟩ := Text.nextIs_iff.1 h
  obtain ⟨hopen, hclose, hsep⟩ := plain_of_isWhitespace hspace
  rw [leftBoundary?, leftBoundary?, Text.before_succ hc, exitOffset_cons hclose hopen hsep,
    Option.map_map]
  congr 1
  funext n
  simp only [Function.comp]
  omega

theorem rightBoundary?_of_isWhitespace (h : t.nextIs Unicode.isWhitespace i = true) :
    rightBoundary? t i = rightBoundary? t (i + 1) := by
  obtain ⟨c, hc, hspace⟩ := Text.nextIs_iff.1 h
  obtain ⟨hopen, hclose, hsep⟩ := plain_of_isWhitespace hspace
  rw [rightBoundary?, rightBoundary?, Text.after_eq_cons hc, exitOffset_cons hopen hclose hsep,
    Option.map_map]
  congr 1
  funext n
  simp only [Function.comp]
  omega

/-- What stays the same from one place to the next over white space is the same on either side
of a stretch of it. -/
theorem eq_of_blank {β : Type} {f : Nat → β}
    (hstep : ∀ k, t.nextIs Unicode.isWhitespace k = true → f (k + 1) = f k) (h : i ≤ j)
    (hblank : ∀ k, i ≤ k → k < j → t.nextIs Unicode.isWhitespace k = true) : f j = f i := by
  obtain ⟨n, rfl⟩ := Nat.exists_eq_add_of_le h
  induction n with
  | zero => rfl
  | succ n ih =>
    have hlast := hstep (i + n) (hblank (i + n) (by omega) (by omega))
    exact hlast.trans (ih (by omega) fun k hk hlt => hblank k hk (by omega))

/-- Over white space, both boundaries stay the same. -/
theorem boundaries_of_blank (h : i ≤ j)
    (hblank : ∀ k, i ≤ k → k < j → t.nextIs Unicode.isWhitespace k = true) :
    leftBoundary? t j = leftBoundary? t i ∧ rightBoundary? t i = rightBoundary? t j := by
  have hleft := eq_of_blank (fun _ => leftBoundary?_succ_of_isWhitespace) h hblank
  have hright := eq_of_blank (fun _ hk => (rightBoundary?_of_isWhitespace hk).symm) h hblank
  exact ⟨hleft, hright.symm⟩

/-- Right behind the left boundary, or at the start of the text where there is none, the left
boundary is the same. -/
theorem leftBoundary?_first (hi : i ≤ t.length) :
    leftBoundary? t (((leftBoundary? t i).map (· + 1)).getD 0) = leftBoundary? t i := by
  cases h : leftBoundary? t i with
  | none => rfl
  | some l =>
    have hlt := leftBoundary?_lt h
    obtain ⟨n, hn, rfl⟩ := Option.map_eq_some_iff.1 h
    have hdrop := exitOffset_drop hn
    rw [Text.drop_before hi] at hdrop
    have hlen := exitOffset_lt hn
    rw [t.length_before] at hlen
    rw [Option.map_some, Option.getD_some, leftBoundary?, show i - 1 - n + 1 = i - n by omega, hdrop,
      Option.map_some]
    congr 1
    omega

/-- At the right boundary, or at the end of the text where there is none, the right boundary
is the same. -/
theorem rightBoundary?_last (t : Text) (i : Nat) :
    rightBoundary? t ((rightBoundary? t i).getD t.length) = rightBoundary? t i := by
  cases h : rightBoundary? t i with
  | none =>
    rw [Option.getD_none, rightBoundary?, Text.after, List.drop_length]
    rfl
  | some r =>
    obtain ⟨n, hn, rfl⟩ := Option.map_eq_some_iff.1 h
    have hdrop := exitOffset_drop hn
    rw [Text.drop_after] at hdrop
    rw [Option.getD_some, rightBoundary?, hdrop]
    rfl

/-- The argument around an argument is that argument. -/
theorem around?_span_eq (hs : s.stop ≤ t.length) (h : around? t s = .ok (some f)) :
    around? t f.span = .ok (some f) := by
  have hle := s.start_le_stop
  have hspan := (around?_spec h).1
  generalize hfirst : ((leftBoundary? t s.start).map (· + 1)).getD 0 = first at hspan
  generalize hlast : (rightBoundary? t s.stop).getD t.length = last at hspan
  have hfirst_le : first ≤ s.start := by
    rw [← hfirst]
    cases hl : leftBoundary? t s.start with
    | none => exact Nat.zero_le _
    | some l => exact leftBoundary?_lt hl
  have hlast_le : s.stop ≤ last ∧ last ≤ t.length := by
    rw [← hlast]
    cases hr : rightBoundary? t s.stop with
    | none => exact ⟨hs, Nat.le_refl _⟩
    | some r =>
      have := rightBoundary?_bounds hr
      exact ⟨this.1, Nat.le_of_lt this.2⟩
  have hbounds := Text.trimmedBounds_le (t := t) (show first ≤ last by omega)
  have hstart : (t.trimmedBounds first last).1 = f.span.start := by rw [← hspan]
  have hstop : (t.trimmedBounds first last).2 = f.span.stop := by rw [← hspan]
  rw [hstart, hstop] at hbounds
  have hleft : leftBoundary? t f.span.start = leftBoundary? t s.start := by
    rw [← leftBoundary?_first (i := s.start) (by omega), hfirst]
    refine (boundaries_of_blank hbounds.1 fun k hk hlt => ?_).1
    exact Text.isWhitespace_of_lt_trimmedBounds hk (hstart ▸ hlt)
  have hright : rightBoundary? t f.span.stop = rightBoundary? t s.stop := by
    rw [← rightBoundary?_last t s.stop, hlast]
    refine (boundaries_of_blank hbounds.2.2 fun k hk hlt => ?_).2
    exact Text.isWhitespace_of_trimmedBounds_le hlast_le.2 (hstop ▸ hk) hlt
  rw [around?, hleft, hright]
  exact h

end Argument

/-! ## Literals -/

namespace Literal

variable {q : Char} {l : Literal} {width : Nat}

/-- Right behind the delimiter that was found last, it is found last. -/
theorem lastDelimiter?_succ (hi : i ≤ t.length) (h : lastDelimiter? q (t.before i) = some n) :
    lastDelimiter? q (t.before (n + 1)) = some n := by
  obtain ⟨hlt, hstands, -⟩ := (lastDelimiter?_eq_some_iff hi).1 h
  exact (lastDelimiter?_eq_some_iff (by omega)).2
    ⟨Nat.lt_succ_self n, hstands, fun k hk hnk => by omega⟩

/-- Where delimiters were found, they are found at once. -/
theorem closeFrom?_self (h : closeFrom? q width i (t.prev? i) (t.after i) = some n) :
    closeFrom? q width n (t.prev? n) (t.after n) = some n := by
  obtain ⟨-, hlt, hstands, -⟩ := closeFrom?_eq_some_iff.1 h
  exact closeFrom?_eq_some_iff.2 ⟨Nat.le_refl n, hlt, hstands, fun k hk hnk => by omega⟩

/-- The literal around the contents of a literal is that literal. -/
theorem around?_span_eq (hs : s.stop ≤ t.length) (h : around? t q s = some l)
    (hf : l.target = .ok f) : around? t q f.span = some l := by
  have hle := s.start_le_stop
  obtain ⟨left, hleft, h⟩ := Option.bind_eq_some_iff.1 h
  obtain ⟨right, hright, h⟩ := Option.bind_eq_some_iff.1 h
  cases h
  obtain ⟨outer, inner, -, hinner, hf⟩ := target_eq_ok.1 hf
  obtain ⟨hstart, hstop, -⟩ := Span.ofBounds_eq_ok_iff.1 hinner
  rw [(Target.withRemoval_eq_ok_iff.1 hf).1, around?, hstart, hstop, Nat.add_sub_cancel,
    lastDelimiter?_succ (by omega) hleft, closeFrom?_self hright]
  rfl

end Literal

end VoiceEdit
