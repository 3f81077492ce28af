import VoiceEdit.Proofs.Code.Escaped
import VoiceEdit.Proofs.Modifier.Literals
import VoiceEdit.Proofs.Modifier.Rest

/-!
# Escaped delimiters around a target

The modifier for literals takes what lies between the nearest delimiters that are not escaped, as
long as no backslash stands before either. A delimiter behind a backslash that is escaped itself is
passed, and the modifier takes what lies between delimiters further out, or keeps its target where
there are none.

Results:

* `apply_of_nearest`, `apply_of_not_nearest`: what the modifier does, by the delimiters it stops at.
* `apply_literal_unescaped`: the same by the delimiters that are not escaped.
* `apply_literal_passes_closer`: a literal that ends in an escaped backslash.
-/
namespace VoiceEdit.Modifier

open Literal (Nearest Selects StandsAt Unescaped)

variable {m : Modifier} {env : Setting} {t : Text} {s : Span} {target : Target} {o c : Nat}

theorem find_literal (hkind : m.kind = .literal .here) :
    m.find env t s = targetOf Literal.target (Literal.around? t m.delimiter s) := by
  simp only [find, hkind]

theorem isContaining_literal (hkind : m.kind = .literal .here) : m.kind.isContaining = true := by
  rw [hkind]
  rfl

theorem not_stopsBefore_literal (hkind : m.kind = .literal .here) :
    t.lastIs m.kind.stopsBefore s = false := by
  rw [hkind]
  refine eq_false_of_ne_true fun hlast => ?_
  obtain ⟨_, -, hstops⟩ := Text.nextIs_iff.1 (Text.lastIs_iff.1 hlast).2
  cases hstops

/-- A step selects what lies between the nearest delimiters that are not passed. -/
theorem step_of_nearest (env : Setting) (hkind : m.kind = .literal .here) (ht : target.Within t)
    (h : Nearest (StandsAt t m.delimiter 1) target.span o c) :
    Answers t (m.step env t target) fun found =>
      found.Within t ∧ Selects ⟨o, 1, c + 1⟩ found := by
  have hfind : m.find env t target.span = targetOf Literal.target (some ⟨o, 1, c + 1⟩) := by
    rw [find_literal hkind, (Literal.around?_eq_some_iff ht.span_stop_le).2 ⟨o, c, h, rfl⟩]
  refine step_finds_or_keeps (not_mustFind (isContaining_literal hkind)) ht
    (fun hlen => finds_literal hkind hlen ht.span_stop_le) (fun found hfound => ?_) fun hnone => ?_
  · obtain ⟨l, hl, hf⟩ := exists_of_targetOf (hfind.symm.trans hfound)
    cases hl
    have hselects := h.target_eq_ok_iff.1 hf
    have hlt := h.right.lt_length Nat.one_pos
    exact ⟨Nat.le_trans (Nat.le_of_eq hselects.removed_stop_eq) hlt, hselects⟩
  · have hnone := eq_none_of_targetOf (hfind.symm.trans hnone)
    cases hnone

/-- What lies between the nearest delimiters that are not passed is selected. -/
theorem apply_of_nearest (hkind : m.kind = .literal .here) (hrep : m.repetitions ≠ 0)
    (ht : target.Within t) (h : Nearest (StandsAt t m.delimiter 1) target.span o c) :
    Answers t (m.apply env t target) (Selects ⟨o, 1, c + 1⟩) := by
  have hne : t ≠ [] :=
    List.ne_nil_of_length_pos (Nat.zero_lt_of_lt (h.right.lt_length Nat.one_pos))
  rcases step_of_nearest env hkind ht h with
    ⟨found, hfound, hwithin, hselects⟩ | ⟨hlong, e, he⟩
  · have hself : m.step env t found = .ok found :=
      step_self (isContaining_literal hkind) ht hfound (not_stopsBefore_literal hkind)
    exact .inl ⟨found, apply_at_rest hrep hne ht hfound hwithin hself, hselects⟩
  · exact .inr ⟨hlong, e, apply_of_step_eq_error hrep hne ht he⟩

/-- Where there is none on one of the sides, the target is kept. -/
theorem apply_of_not_nearest (hkind : m.kind = .literal .here) (hrep : m.repetitions ≠ 0)
    (ht : target.Within t) (h : ∀ o c, ¬Nearest (StandsAt t m.delimiter 1) target.span o c) :
    m.apply env t target = .ok target := by
  have hfind : m.find env t target.span = .ok none := by
    rw [find_literal hkind, (Literal.around?_eq_none_iff ht.span_stop_le).2 h]
    rfl
  have hmust := not_mustFind (isContaining_literal hkind)
  exact apply_eq_self hrep ht (step_eq_ok_iff.2 (.inr ⟨hfind, hmust, rfl⟩))

/-- **Literals and escapes.** Where on one side of the target there is no delimiter that is not
escaped, the modifier for literals keeps it. Else take the nearest on either side: if no backslash
stands before them the modifier selects what lies between them and removes it with them. If one does
then it is passed though it is not escaped, and the modifier takes what lies between the nearest that
no backslash stands before, further out, or keeps its target where there are none. -/
theorem apply_literal_unescaped (env : Setting) (hkind : m.kind = .literal .here)
    (hrep : m.repetitions ≠ 0) (ht : target.removed.stop ≤ t.length) :
    ((∀ k < target.span.start, ¬Unescaped t m.delimiter k) ∨
        (∀ k, target.span.stop ≤ k → ¬Unescaped t m.delimiter k) →
      m.apply env t target = .ok target) ∧
    ((∃ k < target.span.start, Unescaped t m.delimiter k) →
      (∃ k, target.span.stop ≤ k ∧ Unescaped t m.delimiter k) →
      ∃ o c, Nearest (Unescaped t m.delimiter) target.span o c ∧
        (t.prev? o ≠ some '\\' → t.prev? c ≠ some '\\' →
          Answers t (m.apply env t target) (Selects ⟨o, 1, c + 1⟩)) ∧
        (t.prev? o = some '\\' ∨ t.prev? c = some '\\' →
          Answers t (m.apply env t target) fun found =>
            found = target ∧ (∀ o' c', ¬Nearest (StandsAt t m.delimiter 1) target.span o' c') ∨
              ∃ o' c', Nearest (StandsAt t m.delimiter 1) target.span o' c' ∧
                o' ≤ o ∧ c ≤ c' ∧ (o' < o ∨ c < c') ∧ Selects ⟨o', 1, c' + 1⟩ found)) := by
  have hunescaped (k : Nat) (h : StandsAt t m.delimiter 1 k) : Unescaped t m.delimiter k :=
    h.unescaped
  refine ⟨fun hnone => ?_, ?_⟩
  · refine apply_of_not_nearest hkind hrep ht fun o c h => ?_
    rcases hnone with hbefore | hbehind
    · exact hbefore o h.lt_start h.left.unescaped
    · exact hbehind c h.stop_le h.right.unescaped
  · rintro ⟨l, hl, hleft⟩ ⟨r, hr, hright⟩
    obtain ⟨o, c, hnearest⟩ := Literal.exists_nearest hl hleft hr hright
    refine ⟨o, c, hnearest, fun ho hc => ?_, fun hpassed => ?_⟩
    · refine apply_of_nearest hkind hrep ht (hnearest.restrict hunescaped ?_ ?_)
      · exact hnearest.left.standsAt_iff.2 ho
      · exact hnearest.right.standsAt_iff.2 hc
    · by_cases hfurther : ∃ o' c', Nearest (StandsAt t m.delimiter 1) target.span o' c'
      · obtain ⟨o', c', h⟩ := hfurther
        obtain ⟨ho, hc⟩ := hnearest.wider h hunescaped
        refine (apply_of_nearest hkind hrep ht h).mono fun found hfound => ?_
        refine .inr ⟨o', c', h, ho, hc, ?_, hfound⟩
        -- One of the two is passed, so that is not where the search stops.
        rcases hpassed with hpassed | hpassed
        · refine .inl (Nat.lt_of_le_of_ne ho ?_)
          rintro rfl
          exact (Literal.standsAt_one_iff.1 h.left).2 hpassed
        · refine .inr (Nat.lt_of_le_of_ne hc ?_)
          rintro rfl
          exact (Literal.standsAt_one_iff.1 h.right).2 hpassed
      · have hnone (o' c' : Nat) : ¬Nearest (StandsAt t m.delimiter 1) target.span o' c' :=
          fun h => hfurther ⟨o', c', h⟩
        exact .inl ⟨target, apply_of_not_nearest hkind hrep ht hnone, .inl ⟨rfl, hnone⟩⟩

/-- In `"a\"b"` the delimiter in the middle is escaped. -/
theorem apply_literal_unescaped_inner :
    let m : Modifier := { kind := .literal .here }
    let env : Setting := ⟨Settings.default, .none⟩
    let t : Text := ['"', 'a', '\\', '"', 'b', '"']
    let target : Target := .ofSpan (.point 1)
    m.kind = .literal .here ∧ m.repetitions ≠ 0 ∧ target.removed.stop ≤ t.length ∧
      (∃ k < target.span.start, Unescaped t m.delimiter k) ∧
      (∃ k, target.span.stop ≤ k ∧ Unescaped t m.delimiter k) ∧
      ∃ found, m.apply env t target = .ok found ∧ Selects ⟨0, 1, 6⟩ found := by
  intro m env t target
  have ht : target.removed.stop ≤ t.length := by decide
  have hbefore : ∃ k < target.span.start, Unescaped t m.delimiter k := ⟨0, by decide, by decide⟩
  have hbehind : ∃ k, target.span.stop ≤ k ∧ Unescaped t m.delimiter k := ⟨5, by decide, by decide⟩
  have hends : Nearest (Unescaped t m.delimiter) target.span 0 5 :=
    ⟨by decide, by decide, by decide, by decide, by decide, by decide⟩
  obtain ⟨o, c, hnearest, hfound, -⟩ :=
    (apply_literal_unescaped (m := m) env rfl (by decide) ht).2 hbefore hbehind
  obtain ⟨rfl, rfl⟩ := hnearest.unique hends
  refine ⟨rfl, by decide, ht, hbefore, hbehind, ?_⟩
  exact (hfound (by decide) (by decide)).resolve_right fun h => absurd h.1 (by decide)

/-- The literal `"a\\"` ends in an escaped backslash; its last delimiter is not escaped, and from
within the literal nothing is found. -/
theorem apply_literal_passes_closer :
    let m : Modifier := { kind := .literal .here }
    let env : Setting := ⟨Settings.default, .none⟩
    let t : Text := ['"', 'a', '\\', '\\', '"']
    let target : Target := .ofSpan (.point 1)
    Nearest (Unescaped t '"') target.span 0 4 ∧ m.apply env t target = .ok target ∧
      ¬Selects ⟨0, 1, 5⟩ target := by
  intro m env t target
  refine ⟨⟨by decide, by decide, by decide, by decide, by decide, by decide⟩, rfl, fun h => ?_⟩
  exact absurd h.stop_eq (by decide)

end VoiceEdit.Modifier
