import VoiceEdit.Code.Block
import VoiceEdit.Proofs.Text.Pairs
import VoiceEdit.Proofs.Text.Rescan
import VoiceEdit.Proofs.Yields

/-!
# The bodies of braces

The body of a pair of braces is what stands between them without the blanks and the line
break behind the one and the blanks before the other. The braces around a span are tried from
the inside to the outside, and the first whose body holds the span and more is taken. A cursor
can stand between two braces and yet outside their body: such a pair is passed over.

Results:

* `isBody_of_body`, `IsBody.unique`: what the body of two braces is.
* `bodyAround?_spec`: of braces in turn, the first with such a body.
* `braced?_spec`: the innermost body that holds the span and more is found, if there is one.
-/
namespace VoiceEdit

namespace Block

variable {t : Text} {s : Span} {i o c k start stop : Nat}

/-! ## Bodies -/

/-- The blanks from `i` on end at `k`, or `c` comes first and is `k`. -/
structure BlanksEnd (t : Text) (i c k : Nat) : Prop where
  le : i ≤ k
  le_stop : k ≤ c
  blank : ∀ j < k, i ≤ j → t.nextIs isBlank j = true
  last : k < c → t.nextIs isBlank k = false

/-- The body of the braces at `o` and `c` goes from `start`, behind the blanks and the line
break that follow the one, to `stop`, before the blanks that precede the other. -/
structure IsBody (t : Text) (o c start stop : Nat) : Prop where
  lead : ∃ k, BlanksEnd t (o + 1) c k ∧ start = if k < c ∧ t[k]? = some '\n' then k + 1 else k
  start_le : start ≤ stop
  stop_le : stop ≤ c
  trail : ∀ i < c, stop ≤ i → t.nextIs isBlank i = true
  tight : start < stop → t.nextIs isBlank (stop - 1) = false

theorem BlanksEnd.unique {k' : Nat} (h : BlanksEnd t i c k) (h' : BlanksEnd t i c k') : k = k' := by
  have hle {k k' : Nat} (h : BlanksEnd t i c k) (h' : BlanksEnd t i c k') : k ≤ k' := by
    refine Nat.le_of_not_lt fun hlt => ?_
    have hblank := h.blank k' hlt h'.le
    rw [h'.last (Nat.lt_of_lt_of_le hlt h.le_stop)] at hblank
    cases hblank
  exact Nat.le_antisymm (hle h h') (hle h' h)

theorem IsBody.unique {start' stop' : Nat} (h : IsBody t o c start stop)
    (h' : IsBody t o c start' stop') : start = start' ∧ stop = stop' := by
  obtain ⟨k, hk, hstart⟩ := h.lead
  obtain ⟨k', hk', hstart'⟩ := h'.lead
  rw [hk.unique hk', ← hstart'] at hstart
  subst hstart
  -- Between two ends, the later would follow a blank that belongs to the earlier.
  have hle {stop stop' : Nat} (h : IsBody t o c start stop) (h' : IsBody t o c start stop') :
      stop ≤ stop' := by
    refine Nat.le_of_not_lt fun hlt => ?_
    have hstart := h'.start_le
    have hstop := h.stop_le
    have hblank := h'.trail (stop - 1) (by omega) (by omega)
    rw [h.tight (by omega)] at hblank
    cases hblank
  exact ⟨rfl, Nat.le_antisymm (hle h h') (hle h' h)⟩

theorem blanksEnd_runAfter (h : i ≤ c) :
    BlanksEnd t i c (i + min (t.runAfter isBlank i) (c - i)) where
  le := Nat.le_add_right _ _
  le_stop := by omega
  blank := fun j hlt hj => Text.nextIs_of_lt_add_runAfter hj (by omega)
  last := by
    intro hlt
    rw [Nat.min_eq_left (by omega)]
    exact Text.not_nextIs_add_runAfter t isBlank i

/-- What is found as the body of two braces is their body. -/
theorem isBody_of_body {found : Span} (hlt : o < c) (hc : c < t.length)
    (h : body t o c = .ok found) : IsBody t o c found.start found.stop := by
  have hblanks := blanksEnd_runAfter (t := t) (Nat.succ_le_of_lt hlt)
  have hlen := Nat.le_of_lt hc
  unfold body at h
  extract_lets start start₁ start₂ at h
  have hstart : start₂ ≤ c := by
    by_cases hbreak : start₁ < c ∧ t[start₁]? = some '\n'
    · rw [show start₂ = start₁ + 1 from if_pos hbreak]
      exact hbreak.1
    · rw [show start₂ = start₁ from if_neg hbreak]
      exact hblanks.le_stop
  obtain ⟨h₁, h₂, -⟩ := Span.ofBounds_eq_ok_iff.1 h
  rw [h₁, h₂]
  refine ⟨⟨start₁, hblanks, rfl⟩, by omega, Nat.sub_le _ _, fun i hlt hi => ?_, fun hlt => ?_⟩
  · exact Text.nextIs_of_sub_runBefore_le hlen (by omega) hlt
  · have hprev := Text.not_prevIs_sub_runBefore (p := isBlank) hlen
    rw [Nat.min_eq_left (by omega)] at hlt ⊢
    refine eq_false_of_ne_true fun hnext => ?_
    rw [Text.prevIs_iff.2 ⟨by omega, hnext⟩] at hprev
    cases hprev

/-! ## Bodies around a span -/

/-- The body of the braces at `o` and `c` holds `s` and more than `s`. -/
structure Holds (t : Text) (s : Span) (o c start stop : Nat) : Prop where
  pair : Pairs (· == '{') (· == '}') t o c
  body : IsBody t o c start stop
  le_start : start ≤ s.start
  stop_le : s.stop ≤ stop
  more : start < s.start ∨ s.stop < stop

/-- Of all braces whose body holds `s` and more than `s`, these open last. -/
structure InnermostBody (t : Text) (s : Span) (o c start stop : Nat) : Prop
    extends Holds t s o c start stop where
  greatest : ∀ o' c' start' stop', Holds t s o' c' start' stop' → o' ≤ o

theorem not_closes_of_opens (c : Char) (h : (c == '{') = true) : (c == '}') = false := by
  rw [eq_of_beq h]
  rfl

theorem InnermostBody.unique {o' c' start' stop' : Nat} (h : InnermostBody t s o c start stop)
    (h' : InnermostBody t s o' c' start' stop') : start = start' ∧ stop = stop' := by
  have ho : o = o' := Nat.le_antisymm (h'.greatest _ _ _ _ h.toHolds) (h.greatest _ _ _ _ h'.toHolds)
  subst ho
  cases h.pair.unique not_closes_of_opens h'.pair
  exact h.body.unique h'.body

/-- A body is made of braces around the span. -/
theorem Holds.mem_groupsAround (h : Holds t s o c start stop) :
    o ∈ t.groupsAround (· == '{') (· == '}') s.start := by
  obtain ⟨k, hk, hstart⟩ := h.body.lead
  have hlead := hk.le
  have hle : k ≤ start := by
    rw [hstart]
    split
    · exact Nat.le_succ k
    · exact Nat.le_refl k
  have h₁ := h.le_start
  have h₂ := h.stop_le
  have h₃ := h.body.stop_le
  have h₄ := s.start_le_stop
  refine (Text.mem_groupsAround_iff_pairs not_closes_of_opens).2 ⟨by omega, h.pair.opener, ?_⟩
  intro c' hc'
  rw [← h.pair.unique not_closes_of_opens hc']
  omega

/-- Of braces that are tried from the inside to the outside, the first whose body holds `s` and
more than `s` are taken. -/
theorem bodyAround?_spec {openers : List Nat} {r : Option Span}
    (hopeners : openers.Pairwise (· > ·)) (h : bodyAround? t s openers = .ok r) :
    (∃ found o c, r = some found ∧ Holds t s o c found.start found.stop ∧
      ∀ o' ∈ openers, ∀ c' start' stop', Holds t s o' c' start' stop' → o' ≤ o) ∨
    r = none ∧ ∀ o ∈ openers, ∀ c start stop, ¬Holds t s o c start stop := by
  induction openers with
  | nil =>
    cases h
    exact .inr ⟨rfl, fun o ho => by cases ho⟩
  | cons opener outer ih =>
    obtain ⟨hhead, htail⟩ := List.pairwise_cons.1 hopeners
    -- Where the body of these braces does not do, the braces around them decide.
    have skip (hnone : ∀ c start stop, ¬Holds t s opener c start stop)
        (h : bodyAround? t s outer = .ok r) :
        (∃ found o c, r = some found ∧ Holds t s o c found.start found.stop ∧
          ∀ o' ∈ opener :: outer, ∀ c' start' stop', Holds t s o' c' start' stop' → o' ≤ o) ∨
        r = none ∧ ∀ o ∈ opener :: outer, ∀ c start stop, ¬Holds t s o c start stop := by
      rcases ih htail h with ⟨found, o, c, hr, hholds, hgreatest⟩ | ⟨hr, hnone'⟩
      · refine .inl ⟨found, o, c, hr, hholds, fun o' ho' => ?_⟩
        rcases List.mem_cons.1 ho' with rfl | ho'
        · exact fun c' start' stop' h => absurd h (hnone c' start' stop')
        · exact hgreatest o' ho'
      · exact .inr ⟨hr, List.forall_mem_cons.2 ⟨hnone, hnone'⟩⟩
    rw [bodyAround?] at h
    cases hclose : t.closing? (· == '{') (· == '}') opener with
    | none =>
      rw [hclose] at h
      refine skip (fun c start stop hholds => ?_) h
      rw [(Text.closing?_eq_some_iff not_closes_of_opens).2 hholds.pair] at hclose
      cases hclose
    | some closer =>
      rw [hclose] at h
      obtain ⟨found, hfound, h⟩ := bind_eq_ok.1 h
      have hpair := (Text.closing?_eq_some_iff not_closes_of_opens).1 hclose
      have hbody := isBody_of_body hpair.lt hpair.lt_length hfound
      by_cases hheld : found ≠ s ∧ found.contains s = true
      · rw [if_pos hheld] at h
        cases h
        obtain ⟨hne, hin⟩ := hheld
        obtain ⟨hstart, hstop⟩ := Span.contains_iff.1 hin
        refine .inl ⟨found, opener, closer, rfl, ⟨hpair, hbody, hstart, hstop, ?_⟩, fun o' ho' => ?_⟩
        · refine Decidable.by_contra fun hsame => hne (Span.ext ?_ ?_)
          · omega
          · omega
        · rcases List.mem_cons.1 ho' with rfl | ho'
          · exact fun _ _ _ _ => Nat.le_refl _
          · exact fun _ _ _ _ => Nat.le_of_lt (hhead o' ho')
      · rw [if_neg hheld] at h
        refine skip (fun c start stop hholds => hheld ?_) h
        cases hpair.unique not_closes_of_opens hholds.pair
        obtain ⟨rfl, rfl⟩ := hbody.unique hholds.body
        refine ⟨fun heq => ?_, Span.contains_iff.2 ⟨hholds.le_start, hholds.stop_le⟩⟩
        have := hholds.more
        rw [heq] at this
        omega

/-- The body that is found around a span is the innermost that holds the span and more. -/
theorem braced?_spec {r : Option Span} (h : braced? t s = .ok r) :
    (∃ found o c, r = some found ∧ InnermostBody t s o c found.start found.stop) ∨
    r = none ∧ ∀ o c start stop, ¬Holds t s o c start stop := by
  rcases bodyAround?_spec (pairwise_unclosed _ _ _ _) h with
    ⟨found, o, c, hr, hholds, hgreatest⟩ | ⟨hr, hnone⟩
  · exact .inl ⟨found, o, c, hr, hholds, fun o' c' start' stop' h =>
      hgreatest o' h.mem_groupsAround c' start' stop' h⟩
  · exact .inr ⟨hr, fun o c start stop h => hnone o h.mem_groupsAround c start stop h⟩

end Block

end VoiceEdit
