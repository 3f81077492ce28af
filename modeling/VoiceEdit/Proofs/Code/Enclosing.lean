import VoiceEdit.Code.Bracket
import VoiceEdit.Proofs.Text.Pairs
import VoiceEdit.Proofs.Yields

/-!
# The brackets around a span

Read backwards from a span, an opener that no closer waits for is closed in the span, behind
it or nowhere. One count for each kind of brackets tells these openers, whatever the kinds do
to each other in between, and the first of them whose pair is wide enough is the innermost pair
around the span.

Results:

* `Counts.plain`, `Counts.closes`, `Counts.opens`: one mark and the counts.
* `Innermost.unique`: there is at most one innermost pair.
* `enclosing?_spec`, `around?_spec`: the innermost pair is found, if there is a pair at all.
-/
namespace VoiceEdit.Bracket

variable {ms near rest : List Mark} {s : Span} {t : Text} {w : Waiting} {b b' : Bracket} {a : Mark}
  {i o c : Nat}

/-! ## Pairs around a span -/

/-- The brackets at `o` and `c` are a pair of their kind, with `s` in it and behind its opener. -/
structure Encloses (ms : List Mark) (s : Span) (o c : Nat) : Prop where
  pair : ∃ b : Bracket, Pairs b.isOpener b.isCloser ms o c
  lt_start : o < s.start
  start_le : s.start ≤ c
  stop_le : s.stop ≤ c + 1

/-- Of all pairs around `s`, this one opens last. -/
structure Innermost (ms : List Mark) (s : Span) (o c : Nat) : Prop extends Encloses ms s o c where
  greatest : ∀ o' c', Encloses ms s o' c' → o' ≤ o

/-- A pair around `s` opens in what stands before `s`. -/
theorem Encloses.lt_length (h : Encloses ms s o c) : o < (ms.take s.start).reverse.length := by
  obtain ⟨b, hb⟩ := h.pair
  have hopens := h.lt_start
  have hlt := hb.lt
  have hcloses := hb.lt_length
  rw [List.length_reverse, List.length_take]
  omega

theorem isOpener_iff : b.isOpener a = true ↔ a = .opens b := beq_iff_eq

theorem not_isCloser_of_isOpener (b : Bracket) (a : Mark) (h : b.isOpener a = true) :
    b.isCloser a = false := by
  rw [isOpener_iff.1 h]
  rfl

/-- An opener is of one kind only. -/
theorem eq_of_isOpener (ho : ms[o]? = some (.opens b)) (h : ms[o]?.any b'.isOpener = true) :
    b' = b := by
  rw [ho, Option.any_some, isOpener_iff] at h
  exact (Mark.opens.inj h).symm

theorem Innermost.unique {o' c' : Nat} (h : Innermost ms s o c) (h' : Innermost ms s o' c') :
    o = o' ∧ c = c' := by
  have ho : o = o' := Nat.le_antisymm (h'.greatest o c h.toEncloses) (h.greatest o' c' h'.toEncloses)
  subst ho
  obtain ⟨b, hb⟩ := h.pair
  obtain ⟨b', hb'⟩ := h'.pair
  obtain ⟨a, ha, hopens⟩ := (Option.any_eq_true _ _).1 hb.opener
  rw [isOpener_iff.1 hopens] at ha
  cases eq_of_isOpener ha hb'.opener
  exact ⟨rfl, hb.unique (not_isCloser_of_isOpener b) hb'⟩

/-! ## Counting kind by kind -/

/-- For each kind, `w` counts the closers that wait for their openers behind the marks `near`. -/
def Counts (w : Waiting) (near : List Mark) : Prop :=
  ∀ b : Bracket, w.count b = closersWaiting b.isOpener b.isCloser 0 near

theorem Counts.plain (h : Counts w near) : Counts w (near ++ [.plain]) := by
  intro b
  rw [closersWaiting_concat, h b]
  rfl

theorem Counts.closes (h : Counts w near) (b : Bracket) :
    Counts (w.set (w.count b + 1) b) (near ++ [.closes b]) := by
  intro b'
  rw [Waiting.count_set, closersWaiting_concat]
  by_cases hb : b' = b
  · subst hb
    simp [isCloser, h b']
  · have hne : b ≠ b' := fun heq => hb heq.symm
    simp [isCloser, isOpener, hb, hne, h b']

theorem Counts.opens (h : Counts w near) (b : Bracket) :
    Counts (w.set (w.count b - 1) b) (near ++ [.opens b]) := by
  intro b'
  rw [Waiting.count_set, closersWaiting_concat]
  by_cases hb : b' = b
  · subst hb
    simp [isCloser, isOpener, h b']
  · have hne : b ≠ b' := fun heq => hb heq.symm
    simp [isCloser, isOpener, hb, hne, h b']

/-! ## The innermost pair -/

/-- The closer of an opener is the other of its pair. -/
theorem closeOffset?_eq_some_iff (ho : ms[o]? = some (.opens b)) :
    (closeOffset? b (ms.drop (o + 1))).map (o + 1 + ·) = some c ↔
      Pairs b.isOpener b.isCloser ms o c :=
  (pairs_iff (not_isCloser_of_isOpener b) (by rw [ho]; exact beq_self_eq_true _)).symm

/-- The reading comes to the innermost of the pairs that open in what is left to read. -/
theorem enclosing?_spec (hms : (ms.take s.start).reverse = near ++ rest) (hw : Counts w near) :
    (∃ o c, enclosing? ms s.stop w rest = some (o, c) ∧ Encloses ms s o c ∧
      ∀ o' c', Encloses ms s o' c' → o' < rest.length → o' ≤ o) ∨
    enclosing? ms s.stop w rest = none ∧ ∀ o c, Encloses ms s o c → rest.length ≤ o := by
  induction rest generalizing near w with
  | nil => exact .inr ⟨rfl, fun o _ _ => Nat.zero_le o⟩
  | cons a rest ih =>
    obtain ⟨hlt, hget, hnear⟩ := of_reverse_take_eq hms
    have hms' : (ms.take s.start).reverse = near ++ [a] ++ rest := by
      rw [hms, List.append_assoc, List.singleton_append]
    -- Where no pair opens at this mark, the rest decides.
    have skip {w' : Waiting} (hw' : Counts w' (near ++ [a]))
        (hnone : ∀ c, ¬Encloses ms s rest.length c)
        (heq : enclosing? ms s.stop w (a :: rest) = enclosing? ms s.stop w' rest) :
        (∃ o c, enclosing? ms s.stop w (a :: rest) = some (o, c) ∧ Encloses ms s o c ∧
          ∀ o' c', Encloses ms s o' c' → o' < (a :: rest).length → o' ≤ o) ∨
        enclosing? ms s.stop w (a :: rest) = none ∧
          ∀ o c, Encloses ms s o c → (a :: rest).length ≤ o := by
      have hne (o c : Nat) (h : Encloses ms s o c) : o ≠ rest.length := by
        rintro rfl
        exact hnone c h
      rw [heq, List.length_cons]
      rcases ih hms' hw' with ⟨o, c, hfound, hpair, hgreatest⟩ | ⟨hnil, hle⟩
      · refine .inl ⟨o, c, hfound, hpair, fun o' c' h hlt' => hgreatest o' c' h ?_⟩
        have := hne o' c' h
        omega
      · refine .inr ⟨hnil, fun o c h => ?_⟩
        have := hle o c h
        have := hne o c h
        omega
    cases a with
    | plain =>
      refine skip hw.plain (fun c h => ?_) rfl
      obtain ⟨b, hb⟩ := h.pair
      have hopens := hb.opener
      rw [hget] at hopens
      cases hopens
    | closes b =>
      refine skip (hw.closes b) (fun c h => ?_) rfl
      obtain ⟨b', hb⟩ := h.pair
      have hopens := hb.opener
      rw [hget] at hopens
      cases hopens
    | opens b =>
      have hpairs (c : Nat) (h : Encloses ms s rest.length c) :
          Pairs b.isOpener b.isCloser ms rest.length c := by
        obtain ⟨b', hb⟩ := h.pair
        rwa [eq_of_isOpener hget hb.opener] at hb
      have hopener : ms[rest.length]?.any b.isOpener = true := by
        rw [hget]
        exact beq_self_eq_true _
      have hzero := closersWaiting_eq_zero_iff (not_isCloser_of_isOpener b) hlt hopener
      rw [← hnear, ← hw b] at hzero
      have hcount := hw.opens b
      cases hcb : w.count b with
      | succ n =>
        rw [hcb] at hcount
        refine skip hcount (fun c h => ?_) (by rw [enclosing?, hcb]; rfl)
        -- A closer that waits for this opener stands before the span.
        have := hzero.2 fun c' hc' =>
          hc'.unique (not_isCloser_of_isOpener b) (hpairs c h) ▸ h.start_le
        omega
      | zero =>
        have hcount' : Counts w (near ++ [.opens b]) := by
          intro b'
          rw [← hcount b', Waiting.count_set]
          by_cases hb : b' = b
          · rw [if_pos hb, hb, hcb]
          · rw [if_neg hb]
        cases hclose : (closeOffset? b (ms.drop (rest.length + 1))).map (rest.length + 1 + ·) with
        | none =>
          refine skip hcount' (fun c h => ?_) (by simp only [enclosing?, hcb, hclose])
          rw [(closeOffset?_eq_some_iff hget).2 (hpairs c h)] at hclose
          cases hclose
        | some closer =>
          have hpair := (closeOffset?_eq_some_iff hget).1 hclose
          by_cases hstop : s.stop ≤ closer + 1
          · refine .inl ⟨rest.length, closer, by simp only [enclosing?, hcb, hclose, if_pos hstop],
              ⟨⟨b, hpair⟩, hlt, hzero.1 hcb closer hpair, hstop⟩, fun o' c' _ hlt' => ?_⟩
            rw [List.length_cons] at hlt'
            omega
          · refine skip hcount' (fun c h => hstop ?_)
              (by simp only [enclosing?, hcb, hclose, if_neg hstop])
            exact hpair.unique (not_isCloser_of_isOpener b) (hpairs c h) ▸ h.stop_le

/-- The pair around a span is the innermost of the pairs around it. -/
theorem around?_spec (t : Text) (s : Span) :
    (∃ o c, Innermost (marks t) s o c ∧ around? t s = some <$> Span.ofBounds o (c + 1)) ∨
    (∀ o c, ¬Encloses (marks t) s o c) ∧ around? t s = .ok none := by
  have hcounts : Counts {} [] := fun b => by cases b <;> rfl
  unfold around?
  rcases enclosing?_spec (s := s) (List.nil_append _).symm hcounts with
    ⟨o, c, hfound, hpair, hgreatest⟩ | ⟨hnone, hle⟩
  · exact .inl ⟨o, c, ⟨hpair, fun o' c' h => hgreatest o' c' h h.lt_length⟩, by simp only [hfound]⟩
  · exact .inr ⟨fun o c h => Nat.not_lt.2 (hle o c h) h.lt_length, by simp only [hnone]; rfl⟩

end VoiceEdit.Bracket
