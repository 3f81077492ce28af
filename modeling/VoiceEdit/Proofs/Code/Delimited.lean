import VoiceEdit.Proofs.Code.Quoted
import VoiceEdit.Proofs.Text.Rescan

/-!
# Literals between their delimiters

A literal that the scan from the start of the text finds begins with delimiters, one or three, that
no backslash stands before, and ends with the first such delimiters behind them. The scan goes on
behind those, so literals follow each other. Inside a literal between single delimiters stands no
other delimiter, which is why a search to both sides from there comes to the same two.

Results:

* `closeFrom?_eq_some_iff`, `lastDelimiter?_eq_some_iff`: the two searches, said by position.
* `scans_all`: the scan, as rules; by induction on them `Scans.delimited`, `Scans.pairwise` and
  `Scans.complete`: the literals of a text, their order, and that none is left out.
* `around?_of_delimited`: the literal around a place inside a literal.
* `target_eq_ok_iff_selects`, `target_eq_ok_iff`: the target that selects a literal.
-/
namespace VoiceEdit.Literal

variable {t : Text} {q : Char} {l : Literal} {s : Span} {f : Target} {skip width pos i n : Nat}
  {prev : Option Char} {cs : List Char}

/-- `width` delimiters stand at `i`, and no backslash stands before them. -/
def StandsAt (t : Text) (q : Char) (width i : Nat) : Prop :=
  (∀ k < width, t[i + k]? = some q) ∧ t.prev? i ≠ some '\\'

/-- The delimiters at `i` open a literal: three do, and one does where there are not three. -/
def OpensAt (t : Text) (q : Char) (width i : Nat) : Prop :=
  StandsAt t q width i ∧ (width = 3 ∨ width = 1 ∧ ¬StandsAt t q 3 i)

/-- The delimiters at `i` open a literal, and nothing behind them closes it. -/
def Unclosed (t : Text) (q : Char) (i : Nat) : Prop :=
  ∃ width, OpensAt t q width i ∧ ∀ j, i + width ≤ j → ¬StandsAt t q width j

/-- The literal begins with the delimiters that open it and ends with the first behind them that
close it, as many as opened it. -/
structure Delimited (l : Literal) (t : Text) (q : Char) : Prop where
  inner_le : l.start + l.width ≤ l.stop - l.width
  stop_le : l.stop ≤ t.length
  opens : OpensAt t q l.width l.start
  closes : StandsAt t q l.width (l.stop - l.width)
  inside : ∀ i < l.stop - l.width, l.start + l.width ≤ i → ¬StandsAt t q l.width i

/-- The target selects the contents of the literal, and what it removes goes from delimiter to
delimiter. -/
structure Selects (l : Literal) (f : Target) : Prop where
  start_eq : f.span.start = l.start + l.width
  stop_eq : f.span.stop = l.stop - l.width
  removed_start_eq : f.removed.start = l.start
  removed_stop_eq : f.removed.stop = l.stop

/-! ## Delimiters -/

theorem OpensAt.width_eq (h : OpensAt t q width i) : width = 1 ∨ width = 3 :=
  h.2.elim .inr fun h => .inl h.1

theorem StandsAt.lt_length (h : StandsAt t q width i) (hwidth : 0 < width) : i < t.length :=
  (List.getElem?_eq_some_iff.1 (h.1 0 hwidth)).1

theorem take_eq_replicate_iff : cs.take width = List.replicate width q ↔
    ∀ k < width, cs[k]? = some q := by
  constructor
  · intro h k hk
    rw [← List.getElem?_take_of_lt hk, h, List.getElem?_replicate, if_pos hk]
  · intro h
    refine List.ext_getElem? fun k => ?_
    by_cases hk : k < width
    · rw [List.getElem?_take_of_lt hk, h k hk, List.getElem?_replicate, if_pos hk]
    · rw [List.getElem?_take_eq_none (Nat.le_of_not_lt hk), List.getElem?_replicate, if_neg hk]

theorem delimits_iff : delimits q width (t.prev? i) (t.after i) = true ↔ StandsAt t q width i := by
  rw [delimits, Bool.and_eq_true, beq_iff_eq, bne_iff_ne, take_eq_replicate_iff]
  simp only [Text.after, List.getElem?_drop]
  rfl

/-- The first place where delimiters stand. -/
theorem closeFrom?_eq_some_iff :
    closeFrom? q width pos (t.prev? pos) (t.after pos) = some n ↔
      pos ≤ n ∧ n < t.length ∧ StandsAt t q width n ∧
        ∀ i < n, pos ≤ i → ¬StandsAt t q width i := by
  generalize hcs : t.after pos = cs
  induction cs generalizing pos with
  | nil =>
    have hlen : t.length ≤ pos := List.drop_eq_nil_iff.1 hcs
    refine iff_of_false (fun h => by cases h) ?_
    rintro ⟨hle, hlt, -⟩
    omega
  | cons c rest ih =>
    obtain ⟨hc, hrest⟩ := Text.of_after_eq_cons hcs
    have hpos := (List.getElem?_eq_some_iff.1 hc).1
    rw [closeFrom?, ← hcs, ← Text.prev?_succ hc]
    by_cases hd : delimits q width (t.prev? pos) (t.after pos) = true
    · rw [if_pos hd, Option.some.injEq]
      have hstands := delimits_iff.1 hd
      constructor
      · rintro rfl
        exact ⟨Nat.le_refl _, hpos, hstands, fun i hi hle => by omega⟩
      · rintro ⟨hle, -, -, hfirst⟩
        exact Nat.le_antisymm hle (Nat.le_of_not_lt fun hlt => hfirst pos hlt (Nat.le_refl _) hstands)
    · rw [if_neg hd, ih hrest]
      have hnot := mt delimits_iff.2 hd
      constructor
      · rintro ⟨hle, hlt, hstands, hfirst⟩
        refine ⟨by omega, hlt, hstands, fun i hi hpi => ?_⟩
        rcases Nat.eq_or_lt_of_le hpi with rfl | hpi
        · exact hnot
        · exact hfirst i hi hpi
      · rintro ⟨hle, hlt, hstands, hfirst⟩
        refine ⟨?_, hlt, hstands, fun i hi hpi => hfirst i hi (by omega)⟩
        rcases Nat.eq_or_lt_of_le hle with rfl | hle
        · exact absurd hstands hnot
        · exact hle

/-- Where none are found, none stand. -/
theorem not_standsAt_of_closeFrom? (hwidth : 0 < width)
    (h : closeFrom? q width pos (t.prev? pos) (t.after pos) = none) (hi : pos ≤ i) :
    ¬StandsAt t q width i := by
  induction i using Nat.strongRecOn with
  | ind i ih =>
    intro hstands
    have hfirst := closeFrom?_eq_some_iff.2 ⟨hi, hstands.lt_length hwidth, hstands, ih⟩
    rw [h] at hfirst
    cases hfirst

/-- The last place before another where a delimiter stands. -/
theorem lastDelimiter?_eq_some_iff (hi : i ≤ t.length) :
    lastDelimiter? q (t.before i) = some n ↔
      n < i ∧ StandsAt t q 1 n ∧ ∀ k < i, n < k → ¬StandsAt t q 1 k := by
  induction i with
  | zero => exact iff_of_false (fun h => by cases h) (fun h => Nat.not_lt_zero _ h.1)
  | succ i ih =>
    have hc : t[i]? = some t[i] := List.getElem?_eq_getElem hi
    have hlen : (t.before i).length = i := by rw [t.length_before]; omega
    have hd : delimits q 1 (t.before i).head? [t[i]] = delimits q 1 (t.prev? i) (t.after i) := by
      rw [Text.head?_before (by omega), Text.after_eq_cons hc]
      rfl
    rw [Text.before_succ hc, lastDelimiter?, hd, hlen]
    by_cases hstands : delimits q 1 (t.prev? i) (t.after i) = true
    · rw [if_pos hstands, Option.some.injEq]
      have hat := delimits_iff.1 hstands
      constructor
      · rintro rfl
        exact ⟨Nat.lt_succ_self _, hat, fun k hk hlt => by omega⟩
      · rintro ⟨hlt, -, hlast⟩
        refine Nat.le_antisymm (Nat.le_of_not_lt fun h => ?_) (Nat.le_of_lt_succ hlt)
        exact hlast i (Nat.lt_succ_self i) (by omega) hat
    · rw [if_neg hstands, ih (by omega)]
      have hnot := mt delimits_iff.2 hstands
      constructor
      · rintro ⟨hlt, hat, hlast⟩
        refine ⟨by omega, hat, fun k hk hlt' => ?_⟩
        rcases Nat.eq_or_lt_of_le (Nat.le_of_lt_succ hk) with rfl | hk
        · exact hnot
        · exact hlast k hk hlt'
      · rintro ⟨hlt, hat, hlast⟩
        refine ⟨?_, hat, fun k hk hlt' => hlast k (by omega) hlt'⟩
        rcases Nat.eq_or_lt_of_le (Nat.le_of_lt_succ hlt) with rfl | hlt
        · exact absurd hat hnot
        · exact hlt

/-! ## The literals of a text -/

/-- An opener is as wide as it can be. -/
theorem opensAt_of_delimits (hd : delimits q 1 (t.prev? pos) (t.after pos) = true)
    (hwidth : (if (t.after pos).take 3 == [q, q, q] then 3 else 1) = width) :
    OpensAt t q width pos := by
  have hone := delimits_iff.1 hd
  have hthree : ((t.after pos).take 3 == [q, q, q]) = true ↔ StandsAt t q 3 pos := by
    rw [← delimits_iff, delimits, bne_iff_ne.2 hone.2, Bool.and_true]
    rfl
  by_cases h : ((t.after pos).take 3 == [q, q, q]) = true
  · rw [if_pos h] at hwidth
    subst hwidth
    exact ⟨hthree.1 h, .inl rfl⟩
  · rw [if_neg h] at hwidth
    subst hwidth
    exact ⟨hone, .inr ⟨rfl, mt hthree.2 h⟩⟩

/-- Behind an opener stands a delimiter. -/
theorem OpensAt.prev?_eq (h : OpensAt t q width pos) : t.prev? (pos + width) = some q := by
  have hwidth := h.width_eq
  have hlast := h.1.1 (width - 1) (by omega)
  rw [show pos + width = pos + (width - 1) + 1 by omega]
  exact Text.prev?_succ hlast

/-- What stands from an opener to the first delimiters that close it is a literal. -/
theorem delimited_of_closeFrom? {close : Nat} (hopens : OpensAt t q width pos)
    (h : closeFrom? q width (pos + width) (t.prev? (pos + width)) (t.after (pos + width)) =
      some close) : Delimited ⟨pos, width, close + width⟩ t q := by
  have hbounds := closeFrom?_bounds h
  rw [t.length_after] at hbounds
  obtain ⟨hle, hlt, hcloses, hfirst⟩ := closeFrom?_eq_some_iff.1 h
  have hstop : close + width - width = close := Nat.add_sub_cancel close width
  refine ⟨?_, ?_, hopens, ?_, ?_⟩ <;> simp only [hstop]
  · exact hle
  · omega
  · exact hcloses
  · exact hfirst

/-! ## The scan -/

/-- The literals that a scan finds from a place on. It passes what is no delimiter, takes the literal
that an opener begins and goes on behind it, and ends where the text does or at an opener that
nothing closes. -/
inductive Scans (t : Text) (q : Char) : Nat → List Literal → Prop
  | done {pos : Nat} (h : t.length ≤ pos) : Scans t q pos []
  | pass {pos : Nat} {ls : List Literal} (h : ¬StandsAt t q 1 pos) (rest : Scans t q (pos + 1) ls) :
      Scans t q pos ls
  | unclosed {pos : Nat} (h : Unclosed t q pos) : Scans t q pos []
  | literal {l : Literal} {ls : List Literal} (h : l.Delimited t q) (rest : Scans t q l.stop ls) :
      Scans t q l.start (l :: ls)

/-- What is to be skipped is skipped. -/
theorem literalsFrom_skip : literalsFrom q skip pos (t.prev? pos) (t.after pos) =
    literalsFrom q 0 (pos + skip) (t.prev? (pos + skip)) (t.after (pos + skip)) := by
  induction skip generalizing pos with
  | zero => rfl
  | succ skip ih =>
    cases hcs : t.after pos with
    | nil =>
      have hnil : t.after (pos + (skip + 1)) = [] := by
        rw [← Text.drop_after, hcs, List.drop_nil]
      rw [hnil, literalsFrom, literalsFrom]
    | cons c rest =>
      obtain ⟨hc, hrest⟩ := Text.of_after_eq_cons hcs
      rw [literalsFrom, ← Text.prev?_succ hc, ← hrest, ih, Nat.add_assoc pos 1, Nat.add_comm 1]

/-- By induction on what is left of the text. -/
theorem scans_literalsFrom (n : Nat) (hn : t.length - pos = n) :
    Scans t q pos (literalsFrom q 0 pos (t.prev? pos) (t.after pos)) := by
  induction n using Nat.strongRecOn generalizing pos with
  | ind n ih =>
    cases hcs : t.after pos with
    | nil =>
      rw [literalsFrom]
      exact .done (List.drop_eq_nil_iff.1 hcs)
    | cons c rest =>
      obtain ⟨hc, hrest⟩ := Text.of_after_eq_cons hcs
      have hlt := (List.getElem?_eq_some_iff.1 hc).1
      rw [literalsFrom, ← hcs, ← Text.prev?_succ hc, ← hrest]
      by_cases hd : delimits q 1 (t.prev? pos) (t.after pos) = true
      · rw [if_pos hd]
        generalize hwidth : (if (t.after pos).take 3 == [q, q, q] then 3 else 1) = width
        have hopens := opensAt_of_delimits hd hwidth
        have hpos : 0 < width := by
          have := hopens.width_eq
          omega
        simp only [Text.drop_after]
        rw [← hopens.prev?_eq]
        cases hclose : closeFrom? q width (pos + width) (t.prev? (pos + width))
            (t.after (pos + width)) with
        | none =>
          exact .unclosed ⟨width, hopens, fun j hj => not_standsAt_of_closeFrom? hpos hclose hj⟩
        | some close =>
          have hle := (closeFrom?_eq_some_iff.1 hclose).1
          simp only
          rw [literalsFrom_skip, Nat.add_sub_cancel' (by omega)]
          exact .literal (delimited_of_closeFrom? hopens hclose) (ih _ (by simp only; omega) rfl)
      · rw [if_neg hd]
        exact .pass (mt delimits_iff.2 hd) (ih _ (by omega) rfl)

theorem scans_all (t : Text) (q : Char) : Scans t q 0 (all t q) := scans_literalsFrom _ rfl

theorem Scans.delimited {ls : List Literal} (h : Scans t q pos ls) (hl : l ∈ ls) :
    l.Delimited t q ∧ pos ≤ l.start := by
  induction h with
  | done | unclosed => cases hl
  | pass _ _ ih => exact ⟨(ih hl).1, Nat.le_of_succ_le (ih hl).2⟩
  | literal hd _ ih =>
    rcases List.mem_cons.1 hl with rfl | hl
    · exact ⟨hd, Nat.le_refl _⟩
    · have := hd.inner_le
      have := (ih hl).2
      exact ⟨(ih hl).1, by omega⟩

theorem Scans.pairwise {ls : List Literal} (h : Scans t q pos ls) :
    ls.Pairwise fun a b => a.stop ≤ b.start := by
  induction h with
  | done | unclosed => exact .nil
  | pass _ _ ih => exact ih
  | literal _ rest ih => exact .cons (fun b hb => (rest.delimited hb).2) ih

/-- A delimiter lies in a literal, or the scan has ended at it or before. -/
theorem Scans.complete {ls : List Literal} (h : Scans t q pos ls) (hi : pos ≤ i)
    (hstands : StandsAt t q 1 i) : (∃ l ∈ ls, l.start ≤ i ∧ i < l.stop) ∨
      ∃ o ≤ i, pos ≤ o ∧ (∀ l ∈ ls, l.stop ≤ o) ∧ Unclosed t q o := by
  induction h with
  | done hlen =>
    have := hstands.lt_length Nat.one_pos
    omega
  | pass hnot _ ih =>
    rcases Nat.eq_or_lt_of_le hi with rfl | hi
    · exact absurd hstands hnot
    · refine (ih hi).imp_right ?_
      rintro ⟨o, hle, hpos, hrest⟩
      exact ⟨o, hle, Nat.le_of_succ_le hpos, hrest⟩
  | unclosed hopen => exact .inr ⟨_, hi, Nat.le_refl _, nofun, hopen⟩
  | @literal l ls hd _ ih =>
    by_cases hlt : i < l.stop
    · exact .inl ⟨l, List.mem_cons_self, hi, hlt⟩
    · have hinner := hd.inner_le
      refine (ih (Nat.le_of_not_lt hlt)).imp ?_ ?_
      · rintro ⟨l', hl', hin⟩
        exact ⟨l', List.mem_cons_of_mem _ hl', hin⟩
      · rintro ⟨o, hle, hpos, hbefore, hopen⟩
        exact ⟨o, hle, by omega, List.forall_mem_cons.2 ⟨hpos, hbefore⟩, hopen⟩

theorem delimited_of_mem_all (h : l ∈ all t q) : l.Delimited t q := ((scans_all t q).delimited h).1

theorem pairwise_all (t : Text) (q : Char) :
    (all t q).Pairwise fun a b => a.stop ≤ b.start := (scans_all t q).pairwise

/-! ## From inside a literal -/

/-- Around a place between its single delimiters, a literal is found. -/
theorem around?_of_delimited (hl : l.Delimited t q) (hwidth : l.width = 1)
    (hstart : l.start + l.width ≤ s.start) (hstop : s.stop ≤ l.stop - l.width) :
    around? t q s = some l := by
  obtain ⟨hle, hlen, ⟨hopens, -⟩, hcloses, hinside⟩ := hl
  rw [hwidth] at hstart hstop hle hopens hcloses hinside
  have hs := s.start_le_stop
  have hleft : lastDelimiter? q (t.before s.start) = some l.start := by
    refine (lastDelimiter?_eq_some_iff (by omega)).2 ⟨by omega, hopens, fun k hk hlt => ?_⟩
    exact hinside k (by omega) (by omega)
  have hright : closeFrom? q 1 s.stop (t.prev? s.stop) (t.after s.stop) = some (l.stop - 1) := by
    refine closeFrom?_eq_some_iff.2 ⟨hstop, by omega, hcloses, fun i hi hle' => ?_⟩
    exact hinside i hi (by omega)
  rw [around?, hleft, hright]
  show some (⟨l.start, 1, l.stop - 1 + 1⟩ : Literal) = some l
  rw [Nat.sub_add_cancel (by omega), ← hwidth]

/-! ## Targets -/

/-- A literal makes the target that selects it, and no other. -/
theorem target_eq_ok_iff_selects (hpos : 0 < l.width) (hinner : l.start + l.width ≤ l.stop - l.width) :
    l.target = .ok f ↔ l.Selects f := by
  constructor
  · intro h
    obtain ⟨outer, inner, houter, hinner, h⟩ := target_eq_ok.1 h
    obtain ⟨hspan, hremoval⟩ := Target.withRemoval_eq_ok_iff.1 h
    obtain ⟨houter₁, houter₂, -⟩ := Span.ofBounds_eq_ok_iff.1 houter
    obtain ⟨hinner₁, hinner₂, -⟩ := Span.ofBounds_eq_ok_iff.1 hinner
    have hremoved : f.removed = outer := by rw [Target.removed, hremoval, Option.getD_some]
    rw [← hspan] at hinner₁ hinner₂
    rw [← hremoved] at houter₁ houter₂
    exact ⟨hinner₁, hinner₂, houter₁, houter₂⟩
  · rintro ⟨hstart, hstop, hremoved₁, hremoved₂⟩
    have hlimit := f.removed.stop_le_limit (by omega)
    have hremoval : f.removal = some f.removed := by
      cases h : f.removal with
      | some r => rw [Target.removed, h, Option.getD_some]
      | none =>
        rw [Target.removed, h, Option.getD_none] at hremoved₁
        omega
    refine target_eq_ok.2 ⟨f.removed, f.span, ?_, ?_, Target.withRemoval_eq_ok_iff.2 ⟨rfl, hremoval⟩⟩
    · exact Span.ofBounds_eq_ok_iff.2 ⟨hremoved₁, hremoved₂, by omega⟩
    · exact Span.ofBounds_eq_ok_iff.2 ⟨hstart, hstop, by omega⟩

/-- A literal of a text makes the target that selects it, and no other. -/
theorem target_eq_ok_iff (hl : l.Delimited t q) : l.target = .ok f ↔ l.Selects f := by
  have hwidth := hl.opens.width_eq
  exact target_eq_ok_iff_selects (by omega) hl.inner_le

end VoiceEdit.Literal
