import VoiceEdit.Proofs.Code.Delimited
import VoiceEdit.Proofs.Modifier.Answers
import VoiceEdit.Proofs.Modifier.Bounds
import VoiceEdit.Proofs.Modifier.Progress

/-!
# From literal to literal

The steps to the next and to the previous literal go through the literals that the scan from the
start of the text finds, one by one and without leaving one out, until there are no more. From a
place inside a literal between single delimiters the search to both sides finds the same literal.

Results:

* `step_literal`, `apply_reaches`: one step of a modifier for literals, and any number.
* `next?_eq_getElem?`, `previous?_eq_getElem?`: the literal after, or before, so many of them.
* `apply_literals_in_turn`: the literals of a text, forwards and backwards.
* `apply_literal_agrees`: the literal around a place inside a literal.
-/
namespace VoiceEdit

/-! ## Lists in order -/

section

variable {α : Type} {R : α → α → Prop} {p : α → Bool} {as : List α} {a : α} {k : Nat}

/-- What is found first, when everything up to a place is passed and nothing behind it is. -/
theorem find?_eq_getElem? (hbefore : ∀ a ∈ as.take k, p a = false)
    (hbehind : ∀ a ∈ as.drop k, p a = true) : as.find? p = as[k]? := by
  have hnone : (as.take k).find? p = none :=
    List.find?_eq_none.2 fun a ha => ne_true_of_eq_false (hbefore a ha)
  have hsplit : as.find? p = (as.take k ++ as.drop k).find? p := by rw [List.take_append_drop]
  rw [hsplit, List.find?_append, hnone, Option.none_or, ← List.head?_drop]
  cases hdrop : as.drop k with
  | nil => rfl
  | cons b bs =>
    rw [List.find?_cons_of_pos (hbehind b (by rw [hdrop]; exact List.mem_cons_self)), List.head?_cons]

/-- The last of the first members of a list stands behind the others of them and before the rest. -/
theorem of_getLast?_take (has : as.Pairwise R) (ha : (as.take k).getLast? = some a) :
    (∀ b ∈ as.take k, b = a ∨ R b a) ∧ ∀ b ∈ as.drop k, R a b := by
  rw [← List.take_append_drop k as] at has
  obtain ⟨htake, -, hcross⟩ := List.pairwise_append.1 has
  have hmem := List.mem_of_getLast? ha
  refine ⟨fun b hb => ?_, fun b hb => hcross a hmem b hb⟩
  obtain ⟨front, hfront⟩ := List.getLast?_eq_some_iff.1 ha
  rw [hfront] at hb htake
  rcases List.mem_append.1 hb with hb | hb
  · exact .inr ((List.pairwise_append.1 htake).2.2 b hb a (List.mem_singleton_self a))
  · exact .inl (List.mem_singleton.1 hb)

end

namespace Literal

variable {t : Text} {q : Char} {l : Literal} {ls : List Literal} {input f : Target} {k : Nat}

/-- `found` selects the literal, or it is `f` where there is none. -/
def StepsTo : Option Literal → Target → Target → Prop
  | some l, _, found => l.Selects found
  | none, f, found => found = f

/-- `found` selects the last of the first `k` literals: the `k`-th of them, or the last one where
there are fewer. Where there are none it is `input`. -/
def Reaches (ls : List Literal) (k : Nat) (input found : Target) : Prop :=
  StepsTo (ls.take k).getLast? input found

theorem reaches_zero : Reaches ls 0 input input := rfl

/-- From one literal to the one behind it, or no further. -/
theorem Reaches.succ {found : Target} (h : Reaches ls k input f) (hfound : StepsTo ls[k]? f found) :
    Reaches ls (k + 1) input found := by
  unfold Reaches at h ⊢
  rw [List.take_add_one]
  cases hk : ls[k]? with
  | some l =>
    rw [hk] at hfound
    rw [Option.toList_some, List.getLast?_concat]
    exact hfound
  | none =>
    rw [hk] at hfound
    obtain rfl : found = f := hfound
    rw [Option.toList_none, List.append_nil]
    exact h

/-- After so many literals the next one follows. -/
theorem next?_eq_getElem? {o : Option Literal} (h : Reaches (all t q) k (.ofSpan (.point 0)) f)
    (ho : next? t q f.span = .ok o) : o = (all t q)[k]? := by
  rw [next?_eq ho]
  unfold Reaches at h
  cases hlast : ((all t q).take k).getLast? with
  | none =>
    rw [hlast] at h
    obtain rfl : f = .ofSpan (.point 0) := h
    refine find?_eq_getElem? (fun l hl => ?_) fun l hl => decide_eq_true (Nat.zero_le _)
    rw [List.getLast?_eq_none_iff.1 hlast] at hl
    cases hl
  | some last =>
    rw [hlast] at h
    obtain ⟨htake, hdrop⟩ := of_getLast?_take (pairwise_all t q) hlast
    have hd := delimited_of_mem_all (List.mem_of_mem_take (List.mem_of_getLast? hlast))
    have hstop := Selects.stop_eq h
    have hinner := hd.inner_le
    have hwidth := hd.opens.width_eq
    refine find?_eq_getElem? (fun l hl => decide_eq_false ?_) fun l hl => decide_eq_true ?_
    · rcases htake l hl with rfl | hbefore
      · omega
      · have := (delimited_of_mem_all (List.mem_of_mem_take hl)).inner_le
        omega
    · have := hdrop l hl
      omega

/-- Before so many literals, counted from the end, the previous one stands. -/
theorem previous?_eq_getElem? {o : Option Literal}
    (h : Reaches (all t q).reverse k (.ofSpan (.point t.length)) f)
    (ho : previous? t q f.span = .ok o) : o = (all t q).reverse[k]? := by
  rw [previous?_eq ho]
  have hmem {l : Literal} (hl : l ∈ (all t q).reverse) : l.Delimited t q :=
    delimited_of_mem_all (List.mem_reverse.1 hl)
  unfold Reaches at h
  cases hlast : ((all t q).reverse.take k).getLast? with
  | none =>
    rw [hlast] at h
    obtain rfl : f = .ofSpan (.point t.length) := h
    refine find?_eq_getElem? (fun l hl => ?_) fun l hl => decide_eq_true ?_
    · rw [List.getLast?_eq_none_iff.1 hlast] at hl
      cases hl
    · exact (hmem (List.mem_of_mem_drop hl)).stop_le
  | some last =>
    rw [hlast] at h
    obtain ⟨htake, hdrop⟩ := of_getLast?_take (List.pairwise_reverse.2 (pairwise_all t q)) hlast
    have hd := hmem (List.mem_of_mem_take (List.mem_of_getLast? hlast))
    have hstart := Selects.start_eq h
    have hinner := hd.inner_le
    have hwidth := hd.opens.width_eq
    refine find?_eq_getElem? (fun l hl => decide_eq_false ?_) fun l hl => decide_eq_true ?_
    · rcases htake l hl with rfl | hbehind
      · omega
      · have := (hmem (List.mem_of_mem_take hl)).inner_le
        omega
    · have := hdrop l hl
      omega

end Literal

namespace Modifier

open Literal (Reaches StepsTo)

variable {m : Modifier} {env : Setting} {t : Text} {l : Literal} {ls : List Literal}
  {input target : Target}

/-! ## Steps -/

theorem mustFind_literal {place : Place} (hkind : m.kind = .literal place) :
    m.kind.mustFind = false := by
  rw [hkind]
  rfl

/-- A step to a literal selects it; where there is none the target is kept. -/
theorem step_literal {o : Option Literal} {place : Place} (hkind : m.kind = .literal place)
    (hfind : ∀ r, m.find env t target.span = .ok r → targetOf Literal.target o = .ok r)
    (ho : ∀ l ∈ o, l ∈ Literal.all t m.delimiter) (ht : target.Within t) :
    Answers t (m.step env t target) fun found => found.Within t ∧ StepsTo o target found := by
  refine step_finds_or_keeps (mustFind_literal hkind) ht
    (fun hlen => finds_literal hkind hlen ht.span_stop_le) (fun found hfound => ?_) fun hnone => ?_
  · obtain ⟨l, rfl, htarget⟩ := exists_of_targetOf (hfind _ hfound)
    have hdelimited := Literal.delimited_of_mem_all (ho l rfl)
    have hselects := (Literal.target_eq_ok_iff hdelimited).1 htarget
    exact ⟨Nat.le_trans (Nat.le_of_eq hselects.removed_stop_eq) hdelimited.stop_le, hselects⟩
  · rw [eq_none_of_targetOf (hfind _ hnone)]
    rfl

/-- Where each step leads from the first so many literals to the next one, so many steps lead to so
many literals. -/
theorem apply_reaches {place : Place} (hkind : m.kind = .literal place) (hrep : m.repetitions ≠ 0)
    (hls : ∀ l ∈ ls, l ∈ Literal.all t m.delimiter)
    (hfind : ∀ k f r, Reaches ls k input f → m.find env t f.span = .ok r →
      targetOf Literal.target ls[k]? = .ok r)
    (hin : input.Within t) : Answers t (m.apply env t input) (Reaches ls m.repetitions input) := by
  by_cases hempty : t = []
  · subst hempty
    have hnil : ls = [] := List.eq_nil_iff_forall_not_mem.2 fun l hl => by cases hls l hl
    subst hnil
    refine .inl ⟨input, (apply_eq_ok_iff hrep).2 ⟨hin, by rw [if_pos rfl]⟩, ?_⟩
    rw [Reaches, List.take_nil]
    rfl
  · rw [apply_eq_steps hrep hempty hin]
    have hrun : Answers t (m.steps env t m.repetitions input) fun found =>
        found.Within t ∧ Reaches ls m.repetitions input found := by
      refine steps_answers (P := fun k f => f.Within t ∧ Reaches ls k input f) (fun k _ f hf => ?_)
        ⟨hin, Literal.reaches_zero⟩
      have hmem : ∀ l ∈ ls[k]?, l ∈ Literal.all t m.delimiter :=
        fun l hl => hls l (List.mem_of_getElem? hl)
      refine (step_literal hkind (fun r => hfind k f r hf.2) hmem hf.1).mono fun found hfound => ?_
      exact ⟨hfound.1, hfound.1, hf.2.succ hfound.2⟩
    exact hrun.mono fun found hfound => hfound.2

/-- **Literals in turn.** The literals that the scan finds in a text follow each other, each between
the delimiters that open and close it, one or three on either side; and a delimiter that lies in
none of them lies behind an opener that nothing closes. From the start of the text `k` steps
forwards lead to the `k`-th literal, and from its end `k` steps backwards to the `k`-th from the
end: to the last one where there are fewer, and nowhere where there is none. -/
theorem apply_literals_in_turn (env : Setting) (t : Text) (q : Char) (query : Option Text) :
    (∀ l ∈ Literal.all t q, (l.width = 1 ∨ l.width = 3) ∧ l.Delimited t q) ∧
    (Literal.all t q).Pairwise (fun a b => a.stop ≤ b.start) ∧
    (∀ i, Literal.StandsAt t q 1 i → (∃ l ∈ Literal.all t q, l.start ≤ i ∧ i < l.stop) ∨
      ∃ o ≤ i, (∀ l ∈ Literal.all t q, l.stop ≤ o) ∧ Literal.Unclosed t q o) ∧
    ∀ k, 1 ≤ k →
      Answers t (apply ⟨.literal .next, k, query, q⟩ env t (.ofSpan (.point 0)))
        (Reaches (Literal.all t q) k (.ofSpan (.point 0))) ∧
      Answers t (apply ⟨.literal .previous, k, query, q⟩ env t (.ofSpan (.point t.length)))
        (Reaches (Literal.all t q).reverse k (.ofSpan (.point t.length))) := by
  refine ⟨fun l hl => ?_, Literal.pairwise_all t q, fun i hi => ?_, fun k hk => ⟨?_, ?_⟩⟩
  · have hd := Literal.delimited_of_mem_all hl
    exact ⟨hd.opens.width_eq, hd⟩
  · refine ((Literal.scans_all t q).complete (Nat.zero_le i) hi).imp_right ?_
    rintro ⟨o, hle, -, hbefore, hopen⟩
    exact ⟨o, hle, hbefore, hopen⟩
  · refine apply_reaches rfl (Nat.ne_of_gt hk) (fun l hl => hl) (fun k f r hf hr => ?_) (Nat.zero_le _)
    obtain ⟨o, ho, hr⟩ := bind_eq_ok.1 hr
    rwa [← Literal.next?_eq_getElem? hf ho]
  · refine apply_reaches rfl (Nat.ne_of_gt hk) (fun l hl => List.mem_reverse.1 hl)
      (fun k f r hf hr => ?_) (Nat.le_refl _)
    obtain ⟨o, ho, hr⟩ := bind_eq_ok.1 hr
    rwa [← Literal.previous?_eq_getElem? hf ho]

/-- A tripled literal and then an empty one: three steps forwards lead to the last of the two, and
two backwards to the first. -/
theorem apply_literals_in_turn_tripled :
    let t : Text := ['"', '"', '"', 'a', '"', '"', '"', ' ', '"', '"']
    let env : Setting := ⟨Settings.default, .none⟩
    1 ≤ 3 ∧ 1 ≤ 2 ∧ Literal.all t '"' = [⟨0, 3, 7⟩, ⟨8, 1, 10⟩] ∧
      (∃ found, apply ⟨.literal .next, 3, none, '"'⟩ env t (.ofSpan (.point 0)) = .ok found ∧
        Literal.Selects ⟨8, 1, 10⟩ found) ∧
      ∃ found, apply ⟨.literal .previous, 2, none, '"'⟩ env t (.ofSpan (.point 10)) = .ok found ∧
        Literal.Selects ⟨0, 3, 7⟩ found := by
  intro t env
  have hall : Literal.all t '"' = [⟨0, 3, 7⟩, ⟨8, 1, 10⟩] := by rfl
  have hshort : ¬Span.limit < t.length := by decide
  obtain ⟨-, -, -, hturn⟩ := apply_literals_in_turn env t '"' none
  rw [hall] at hturn
  obtain ⟨found, hfound, hnext⟩ := (hturn 3 (by decide)).1.resolve_right fun h => hshort h.1
  obtain ⟨found', hfound', hprevious⟩ := (hturn 2 (by decide)).2.resolve_right fun h => hshort h.1
  exact ⟨by decide, by decide, hall, ⟨found, hfound, hnext⟩, found', hfound', hprevious⟩

/-! ## From inside a literal -/

theorem find_of_inside {s : Span} (hkind : m.kind = .literal .here)
    (hl : l ∈ Literal.all t m.delimiter) (hwidth : l.width = 1) (hstart : l.start + 1 ≤ s.start)
    (hstop : s.stop ≤ l.stop - 1) : m.find env t s = targetOf Literal.target (some l) := by
  have haround : Literal.around? t m.delimiter s = some l :=
    Literal.around?_of_delimited (Literal.delimited_of_mem_all hl) hwidth
      (by rw [hwidth]; exact hstart) (by rw [hwidth]; exact hstop)
  simp only [find, hkind, haround]

/-- **Near and far agree.** From every place inside a literal that the scan finds between single
delimiters, its ends included, the search to both sides finds that literal: what it answers, after
any number of repetitions, is the target that selects its contents and removes it. -/
theorem apply_literal_agrees (env : Setting) (hkind : m.kind = .literal .here)
    (hrep : m.repetitions ≠ 0) (hl : l ∈ Literal.all t m.delimiter) (hwidth : l.width = 1)
    (ht : target.removed.stop ≤ t.length) (hstart : l.start + 1 ≤ target.span.start)
    (hstop : target.span.stop ≤ l.stop - 1) :
    Answers t (m.apply env t target) l.Selects ∧
      ∀ found, l.Selects found → m.apply env t target = .ok found := by
  have hd := Literal.delimited_of_mem_all hl
  have hne : t ≠ [] := by
    rintro rfl
    cases hl
  have hfind : m.find env t target.span = targetOf Literal.target (some l) :=
    find_of_inside hkind hl hwidth hstart hstop
  have hsame (found : Target) (hfound : l.Selects found) : m.apply env t target = .ok found := by
    have hwithin : found.Within t := Nat.le_trans (Nat.le_of_eq hfound.removed_stop_eq) hd.stop_le
    have hself : m.find env t found.span = targetOf Literal.target (some l) :=
      find_of_inside hkind hl hwidth (Nat.le_of_eq (by rw [hfound.start_eq, hwidth]))
        (Nat.le_of_eq (by rw [hfound.stop_eq, hwidth]))
    have hsome : targetOf Literal.target (some l) = .ok (some found) :=
      targetOf_some ((Literal.target_eq_ok_iff hd).2 hfound)
    exact apply_at_rest hrep hne ht (step_eq_ok_iff.2 (.inl (hfind.trans hsome))) hwithin
      (step_eq_ok_iff.2 (.inl (hself.trans hsome)))
  refine ⟨?_, hsame⟩
  rcases step_literal hkind (fun r hr => hfind.symm.trans hr) (fun l' hl' => by cases hl'; exact hl) ht with
    ⟨found, -, -, hfound⟩ | ⟨hlong, e, he⟩
  · exact .inl ⟨found, hsame found hfound, hfound⟩
  · exact .inr ⟨hlong, e, apply_of_step_eq_error hrep hne ht he⟩

/-- The literal right behind a tripled one, from its end. -/
theorem apply_literal_agrees_adjacent :
    let m : Modifier := { kind := .literal .here, repetitions := 2 }
    let env : Setting := ⟨Settings.default, .none⟩
    let t : Text := ['"', '"', '"', 'a', '"', '"', '"', '"', 'b', '"']
    let l : Literal := ⟨7, 1, 10⟩
    let target : Target := .ofSpan (.point 9)
    m.kind = .literal .here ∧ m.repetitions ≠ 0 ∧ l ∈ Literal.all t m.delimiter ∧ l.width = 1 ∧
      target.removed.stop ≤ t.length ∧ l.start + 1 ≤ target.span.start ∧
      target.span.stop ≤ l.stop - 1 ∧ ∃ found, m.apply env t target = .ok found ∧ l.Selects found := by
  intro m env t l target
  have hl : l ∈ Literal.all t m.delimiter := by decide
  have ht : target.removed.stop ≤ t.length := by decide
  have hstart : l.start + 1 ≤ target.span.start := by decide
  have hanswers := (apply_literal_agrees (m := m) (t := t) (l := l) env rfl (by decide) hl rfl ht hstart
    (by decide)).1
  refine ⟨rfl, by decide, hl, rfl, ht, hstart, by decide, ?_⟩
  exact hanswers.resolve_right fun h => absurd h.1 (by decide)

end Modifier

end VoiceEdit
