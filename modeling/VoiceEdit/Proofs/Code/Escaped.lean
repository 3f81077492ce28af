import Mathlib.Data.Nat.Find
import VoiceEdit.Proofs.Code.Delimited

/-!
# Escaped delimiters

A backslash escapes what stands behind it, and that may be another backslash: a delimiter is escaped
if an odd number of backslashes stands before it. The searches to both sides look at one character
before a delimiter only. They pass every delimiter that is escaped, and with them those behind a
backslash that is escaped itself.

Results:

* `StandsAt.unescaped`, `Unescaped.standsAt_iff`: which unescaped delimiters are not passed.
* `Nearest.wider`, `Nearest.unique`, `Nearest.restrict`, `exists_nearest`: the nearest places of a
  kind around a span.
* `Nearest.target_eq_ok_iff`: the target that selects what stands between them.
* `around?_eq_some_iff`, `around?_eq_none_iff`: the search to both sides, said by position.
-/
namespace VoiceEdit.Literal

variable {t : Text} {q : Char} {s : Span} {lit : Literal} {f : Target} {p p' : Nat → Prop}
  {i l r l' r' : Nat}

/-- An odd number of backslashes stands before `i`. -/
def Escaped (t : Text) (i : Nat) : Prop := t.runBefore (· == '\\') i % 2 = 1

instance (t : Text) (i : Nat) : Decidable (Escaped t i) :=
  inferInstanceAs (Decidable (t.runBefore (· == '\\') i % 2 = 1))

/-- A delimiter stands at `i`, and it is not escaped. -/
def Unescaped (t : Text) (q : Char) (i : Nat) : Prop := t[i]? = some q ∧ ¬Escaped t i

instance (t : Text) (q : Char) (i : Nat) : Decidable (Unescaped t q i) :=
  inferInstanceAs (Decidable (t[i]? = some q ∧ ¬Escaped t i))

/-- Of the places of a kind, `l` is the last before the span and `r` the first at its end or behind
it. -/
structure Nearest (p : Nat → Prop) (s : Span) (l r : Nat) : Prop where
  lt_start : l < s.start
  left : p l
  last : ∀ k < s.start, l < k → ¬p k
  stop_le : s.stop ≤ r
  right : p r
  first : ∀ k < r, s.stop ≤ k → ¬p k

/-! ## Delimiters that are passed -/

/-- What no backslash stands before is not escaped. -/
theorem not_escaped (hi : i ≤ t.length) (h : t.prev? i ≠ some '\\') : ¬Escaped t i := by
  have hnone : t.runBefore (· == '\\') i = 0 := by
    refine Nat.eq_zero_of_not_pos fun hpos => h ?_
    have hle := t.runBefore_le (· == '\\') i
    obtain ⟨c, hc, heq⟩ := Text.nextIs_iff.1
      (Text.nextIs_of_sub_runBefore_le (p := (· == '\\')) hi (k := i - 1) (by omega) (by omega))
    rw [Text.prev?, if_neg (by omega), hc, eq_of_beq heq]
  rw [Escaped, hnone]
  decide

theorem standsAt_one_iff : StandsAt t q 1 i ↔ t[i]? = some q ∧ t.prev? i ≠ some '\\' := by
  unfold StandsAt
  simp only [Nat.lt_one_iff, forall_eq, Nat.add_zero]

/-- A delimiter that is not passed is not escaped. -/
theorem StandsAt.unescaped (h : StandsAt t q 1 i) : Unescaped t q i := by
  have hlt := h.lt_length Nat.one_pos
  obtain ⟨hq, hprev⟩ := standsAt_one_iff.1 h
  exact ⟨hq, not_escaped (Nat.le_of_lt hlt) hprev⟩

/-- Of those that are not escaped, the ones behind a backslash are passed. -/
theorem Unescaped.standsAt_iff (h : Unescaped t q i) : StandsAt t q 1 i ↔ t.prev? i ≠ some '\\' := by
  rw [standsAt_one_iff]
  exact and_iff_right h.1

/-! ## The nearest places -/

/-- With fewer places to choose from, the nearest are no nearer. -/
theorem Nearest.wider (h : Nearest p s l r) (h' : Nearest p' s l' r') (hp : ∀ k, p' k → p k) :
    l' ≤ l ∧ r ≤ r' :=
  ⟨Nat.le_of_not_lt fun hlt => h.last l' h'.lt_start hlt (hp l' h'.left),
    Nat.le_of_not_lt fun hlt => h.first r' hlt h'.stop_le (hp r' h'.right)⟩

theorem Nearest.unique (h : Nearest p s l r) (h' : Nearest p s l' r') : l = l' ∧ r = r' := by
  obtain ⟨hl, hr⟩ := h.wider h' fun _ => id
  obtain ⟨hl', hr'⟩ := h'.wider h fun _ => id
  exact ⟨Nat.le_antisymm hl' hl, Nat.le_antisymm hr hr'⟩

/-- The nearest places are the nearest of fewer that they are among. -/
theorem Nearest.restrict (h : Nearest p s l r) (hp : ∀ k, p' k → p k) (hl : p' l) (hr : p' r) :
    Nearest p' s l r :=
  ⟨h.lt_start, hl, fun k hk hlt => mt (hp k) (h.last k hk hlt), h.stop_le, hr,
    fun k hk hle => mt (hp k) (h.first k hk hle)⟩

/-- With a place on either side there are the nearest. -/
theorem exists_nearest [DecidablePred p] (hl : l < s.start) (hpl : p l) (hr : s.stop ≤ r) (hpr : p r) :
    ∃ l r, Nearest p s l r := by
  have hright : ∃ k, s.stop ≤ k ∧ p k := ⟨r, hr, hpr⟩
  obtain ⟨hstop, hfound⟩ := Nat.find_spec hright
  have hle := Nat.findGreatest_le (P := p) (s.start - 1)
  refine ⟨Nat.findGreatest p (s.start - 1), Nat.find hright, by omega, ?_, fun k hk hlt => ?_, hstop,
    hfound, fun k hk hle => ?_⟩
  · exact Nat.findGreatest_spec (Nat.le_sub_one_of_lt hl) hpl
  · exact Nat.findGreatest_is_greatest hlt (Nat.le_sub_one_of_lt hk)
  · exact fun hpk => Nat.find_min hright hk ⟨hle, hpk⟩

/-- What stands between the nearest places makes the target that selects it. -/
theorem Nearest.target_eq_ok_iff (h : Nearest p s l r) :
    (⟨l, 1, r + 1⟩ : Literal).target = .ok f ↔ Selects ⟨l, 1, r + 1⟩ f := by
  have hstart := h.lt_start
  have hstop := h.stop_le
  have hle := s.start_le_stop
  refine target_eq_ok_iff_selects Nat.one_pos ?_
  simp only
  omega

/-! ## The search to both sides -/

/-- The literal around a span goes from the nearest delimiter before it to the nearest behind it, of
those that are not passed. -/
theorem around?_eq_some_iff (hs : s.stop ≤ t.length) : around? t q s = some lit ↔
    ∃ l r, Nearest (StandsAt t q 1) s l r ∧ lit = ⟨l, 1, r + 1⟩ := by
  have hstart : s.start ≤ t.length := Nat.le_trans s.start_le_stop hs
  constructor
  · intro h
    obtain ⟨l, hleft, h⟩ := Option.bind_eq_some_iff.1 h
    obtain ⟨r, hright, h⟩ := Option.bind_eq_some_iff.1 h
    cases h
    obtain ⟨hlt, hl, hlast⟩ := (lastDelimiter?_eq_some_iff hstart).1 hleft
    obtain ⟨hle, -, hr, hfirst⟩ := closeFrom?_eq_some_iff.1 hright
    exact ⟨l, r, ⟨hlt, hl, hlast, hle, hr, hfirst⟩, rfl⟩
  · rintro ⟨l, r, h, rfl⟩
    have hleft := (lastDelimiter?_eq_some_iff hstart).2 ⟨h.lt_start, h.left, h.last⟩
    have hright := closeFrom?_eq_some_iff.2
      ⟨h.stop_le, h.right.lt_length Nat.one_pos, h.right, h.first⟩
    rw [around?, hleft, hright]
    rfl

theorem around?_eq_none_iff (hs : s.stop ≤ t.length) :
    around? t q s = none ↔ ∀ l r, ¬Nearest (StandsAt t q 1) s l r := by
  constructor
  · intro hnone l r h
    have hsome := (around?_eq_some_iff hs).2 ⟨l, r, h, rfl⟩
    rw [hnone] at hsome
    cases hsome
  · intro h
    refine Option.eq_none_iff_forall_ne_some.2 fun lit hlit => ?_
    obtain ⟨l, r, hnearest, -⟩ := (around?_eq_some_iff hs).1 hlit
    exact h l r hnearest

end VoiceEdit.Literal
