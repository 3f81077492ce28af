import VoiceEdit.Proofs.Text.Rescan
import VoiceEdit.Proofs.Word.Bounds
import VoiceEdit.Proofs.Word.Fragments

/-!
# The tokens of a text in their order

The maximal runs of a class follow each other with something else between them. Behind a place
comes the first token that starts there or later, and before it the last one that ends there or
earlier. One that goes on across the place is neither.

Results:

* `Text.mem_runs_iff`, `Text.pairwise_runs`: the runs of a text are the maximal ones, in order.
* `Token.next_eq`, `Token.previous_eq`: the token behind a span, and before it.
* `Token.ahead_of_cons`, `Token.back_of_cons`: the tokens behind a token, and before it.
-/
namespace VoiceEdit

variable {t : Text} {p : Char → Bool} {s : Span} {pos start stop : Nat}

/-! ## Lists in order -/

section

variable {α : Type} {R : α → α → Prop} {p q : α → Bool} {as rest : List α} {a : α}

/-- What stands before everything else in the list stands first. -/
theorem head?_eq_some (has : as.Pairwise R) (ha : a ∈ as) (hfirst : ∀ b ∈ as, ¬R b a) :
    as.head? = some a := by
  cases as with
  | nil => cases ha
  | cons b bs =>
    rcases List.mem_cons.1 ha with rfl | hmem
    · rfl
    · exact absurd ((List.pairwise_cons.1 has).1 a hmem) (hfirst b List.mem_cons_self)

/-- A filter that lets through what stands behind the first of what another one does. -/
theorem filter_eq_tail (has : as.Pairwise R) (h : as.filter p = a :: rest)
    (hqp : ∀ b, q b = true → p b = true) (ha : q a = false) (hbehind : ∀ b, R a b → q b = true) :
    as.filter q = rest := by
  have hpairs : (a :: rest).Pairwise R := h ▸ has.sublist List.filter_sublist
  have hagain : as.filter q = (as.filter p).filter q := by
    rw [List.filter_filter]
    refine List.filter_congr fun b _ => ?_
    cases hq : q b with
    | true => rw [hqp b hq, Bool.and_self]
    | false => rw [Bool.false_and]
  rw [hagain, h, List.filter_cons_of_neg (ne_true_of_eq_false ha), List.filter_eq_self.2 fun b hb =>
    hbehind b ((List.pairwise_cons.1 hpairs).1 b hb)]

end

/-! ## Runs -/

namespace Text

variable {run other : Nat × Nat}

/-- From `start` to `stop` stand characters of the class, and no further ones before or behind
them. -/
structure IsRun (t : Text) (p : Char → Bool) (start stop : Nat) : Prop where
  lt : start < stop
  holds : ∀ i, start ≤ i → i < stop → t.nextIs p i = true
  first : t.prevIs p start = false
  last : t.nextIs p stop = false

theorem IsRun.stop_le_length (h : IsRun t p start stop) : stop ≤ t.length := by
  have hlt := h.lt
  have hin := lt_length_of_nextIs (h.holds (stop - 1) (by omega) (by omega))
  omega

theorem IsRun.add_runAfter_start (h : IsRun t p start stop) : start + t.runAfter p start = stop :=
  add_runAfter_eq (Nat.le_of_lt h.lt) h.holds h.last

theorem IsRun.sub_runBefore_stop (h : IsRun t p start stop) : stop - t.runBefore p stop = start :=
  sub_runBefore_eq h.stop_le_length (Nat.le_of_lt h.lt) h.holds h.first

theorem IsRun.sub_runBefore_start (h : IsRun t p start stop) :
    start - t.runBefore p start = start :=
  sub_runBefore_eq (Nat.le_trans (Nat.le_of_lt h.lt) h.stop_le_length) (Nat.le_refl _)
    (fun k hk hlt => by omega) h.first

theorem pairwise_runsFrom (p : Char → Bool) (pos : Nat) (cs : List Char) :
    (runsFrom p pos cs).Pairwise (fun a b => a.2 < b.1) := by
  induction cs generalizing pos with
  | nil => exact .nil
  | cons c rest ih =>
    have hrest := ih (pos + 1)
    rw [runsFrom]
    by_cases hc : p c = true
    · rw [if_pos hc]
      cases hruns : runsFrom p (pos + 1) rest with
      | nil => exact List.pairwise_singleton _ _
      | cons first more =>
        rw [hruns] at hrest
        obtain ⟨hbehind, hmore⟩ := List.pairwise_cons.1 hrest
        by_cases hnext : first.1 = pos + 1
        · simp only [if_pos hnext]
          exact List.pairwise_cons.2 ⟨hbehind, hmore⟩
        · simp only [if_neg hnext]
          have hfirst : first ∈ runsFrom p (pos + 1) rest := hruns ▸ List.mem_cons_self
          have hbounds := mem_runsFrom_bounds hfirst
          refine List.pairwise_cons.2 ⟨fun run hrun => ?_, hrest⟩
          rcases List.mem_cons.1 hrun with rfl | hrun
          · exact Nat.lt_of_le_of_ne hbounds.1 (Ne.symm hnext)
          · exact Nat.lt_of_le_of_lt hbounds.1 (Nat.lt_trans hbounds.2.1 (hbehind run hrun))
    · rw [if_neg hc]
      exact hrest

theorem pairwise_runs (t : Text) (p : Char → Bool) : (t.runs p).Pairwise fun a b => a.2 < b.1 :=
  pairwise_runsFrom p 0 t

/-- Runs that do not lie apart are the same. -/
theorem eq_of_mem_runs (h : run ∈ t.runs p) (h' : other ∈ t.runs p) (hle : other.1 ≤ run.2)
    (hle' : run.1 ≤ other.2) : other = run := by
  have hruns := pairwise_runs t p
  have hapart := List.Pairwise.forall_of_forall_of_flip
    (R := fun a b : Nat × Nat => b = a ∨ a.2 < b.1 ∨ b.2 < a.1) (fun a _ => .inl rfl)
    (hruns.imp fun hab => .inr (.inl hab)) (hruns.imp fun hab => .inr (.inr hab)) h h'
  rcases hapart with heq | hbefore | hbehind
  · exact heq
  · exact absurd hbefore (Nat.not_lt.2 hle)
  · exact absurd hbehind (Nat.not_lt.2 hle')

theorem exists_mem_runs (h : start < stop) (hp : ∀ i, start ≤ i → i < stop → t.nextIs p i = true) :
    ∃ run ∈ t.runs p, run.1 ≤ start ∧ stop ≤ run.2 :=
  exists_mem_runsFrom (Nat.zero_le start) h hp

theorem isRun_of_mem_runs (h : run ∈ t.runs p) : IsRun t p run.1 run.2 := by
  have hlt := (mem_runs_bounds h).1
  have hin (i : Nat) (hi : run.1 ≤ i) (hlt : i < run.2) : t.nextIs p i = true :=
    nextIs_of_mem_runsFrom h hi hlt
  -- With one more character it would lie in a run, which is the same as it touches this one.
  refine ⟨hlt, hin, eq_false_of_ne_true fun hprev => ?_, eq_false_of_ne_true fun hnext => ?_⟩
  · obtain ⟨hpos, hprev⟩ := prevIs_iff.1 hprev
    have hlonger (i : Nat) (hi : run.1 - 1 ≤ i) (hlt : i < run.2) : t.nextIs p i = true := by
      by_cases hedge : i = run.1 - 1
      · exact hedge ▸ hprev
      · exact hin i (by omega) hlt
    obtain ⟨longer, hmem, hfirst, hlast⟩ := exists_mem_runs (by omega) hlonger
    obtain rfl := eq_of_mem_runs h hmem (by omega) (by omega)
    omega
  · have hlonger (i : Nat) (hi : run.1 ≤ i) (hlt : i < run.2 + 1) : t.nextIs p i = true := by
      by_cases hedge : i = run.2
      · exact hedge ▸ hnext
      · exact hin i hi (by omega)
    obtain ⟨longer, hmem, hfirst, hlast⟩ := exists_mem_runs (by omega) hlonger
    obtain rfl := eq_of_mem_runs h hmem (by omega) (by omega)
    omega

/-- The runs of a text are its maximal stretches of characters of the class. -/
theorem mem_runs_iff : (start, stop) ∈ t.runs p ↔ IsRun t p start stop := by
  refine ⟨isRun_of_mem_runs, fun h => ?_⟩
  obtain ⟨run, hmem, hfirst, hlast⟩ := exists_mem_runs h.lt h.holds
  have hrun := isRun_of_mem_runs hmem
  have hstart : run.1 = start := by
    rw [← hrun.sub_runBefore_stop]
    exact sub_runBefore_eq hrun.stop_le_length (by have := h.lt; omega)
      (fun k hk hlt => hrun.holds k (by omega) hlt) h.first
  have hstop : run.2 = stop := by
    rw [← hrun.add_runAfter_start, hstart]
    exact h.add_runAfter_start
  rw [← hstart, ← hstop]
  exact hmem

end Text

/-! ## From token to token -/

namespace Token

open Text (IsRun)

variable {o : Nat × Nat} {rest : List (Nat × Nat)} {found : Target}

/-- The tokens that start at `pos` or behind it, the nearest first. -/
def ahead (t : Text) (pos : Nat) : List (Nat × Nat) := (t.runs isWord).filter (pos ≤ ·.1)

/-- The tokens that end at `pos` or before it, the nearest first. -/
def back (t : Text) (pos : Nat) : List (Nat × Nat) := (t.runs isWord).reverse.filter (·.2 ≤ pos)

/-- The target that selects the token between two places. -/
def select (t : Text) (o : Nat × Nat) : Except Span.Error Target := do
  target t (← Span.ofBounds o.1 o.2)

/-- `found` selects the token, with what goes along with it. -/
structure Selects (t : Text) (o : Nat × Nat) (found : Target) : Prop where
  start_eq : found.span.start = o.1
  stop_eq : found.span.stop = o.2
  removal_eq : found.removal = removal? t found.span

theorem mem_ahead : (start, stop) ∈ ahead t pos ↔ IsRun t isWord start stop ∧ pos ≤ start := by
  rw [ahead, List.mem_filter, Text.mem_runs_iff, decide_eq_true_eq]

theorem mem_back : (start, stop) ∈ back t pos ↔ IsRun t isWord start stop ∧ stop ≤ pos := by
  rw [back, List.mem_filter, List.mem_reverse, Text.mem_runs_iff, decide_eq_true_eq]

theorem pairwise_reverse_runs (t : Text) : (t.runs isWord).reverse.Pairwise fun a b => b.2 < a.1 :=
  List.pairwise_reverse.2 (Text.pairwise_runs t isWord)

theorem map_select (t : Text) (start stop : Nat) : some <$> select t (start, stop) =
    (do return some (← target t (← Span.ofBounds start stop))) := by
  simp only [select, map_bind]
  rfl

/-- Within the limit of spans a token is selected. -/
theorem exists_select (h : IsRun t isWord o.1 o.2) (hlimit : o.2 ≤ Span.limit) :
    ∃ found, select t o = .ok found ∧ found.Within t ∧ Selects t o found := by
  have hspan := Span.ofBounds_eq_ok (Nat.le_of_lt h.lt) hlimit
  obtain ⟨found, hfound, hwithin⟩ := yields_target (s := ⟨o.1, o.2, Nat.le_of_lt h.lt,
    fun _ => hlimit⟩) h.stop_le_length
  obtain ⟨hs, hremoval⟩ := Target.withRemoval?_eq_ok_iff.1 hfound
  refine ⟨found, bind_eq_ok.2 ⟨_, hspan, hfound⟩, hwithin, ?_, ?_, ?_⟩
  · rw [hs]
  · rw [hs]
  · rw [hs, hremoval]

/-- Beyond it a token is refused. -/
theorem select_eq_error (hlimit : Span.limit < o.2) : ∃ e, select t o = .error e := by
  refine ⟨.invalid (Span.reported o.1) (Span.reported o.2), ?_⟩
  rw [select, Span.ofBounds, dif_neg fun h => Nat.not_lt.2 h.2 hlimit]
  rfl

/-! ### Forwards -/

/-- Where the token behind `pos` starts, or the end of the text. -/
def nextPlace (t : Text) (pos : Nat) : Nat :=
  let pos := if inside t pos then pos + t.runAfter isWord pos else pos
  pos + t.runAfter (!isWord ·) pos

theorem next_eq_nextPlace (t : Text) (s : Span) : next t s =
    if t.length ≤ nextPlace t s.stop then .ok none
    else do return some (← target t (← bounds t (nextPlace t s.stop) (nextPlace t s.stop))) := rfl

theorem le_nextPlace (t : Text) (pos : Nat) : pos ≤ nextPlace t pos := by
  unfold nextPlace
  extract_lets pos₁
  have hpos : pos ≤ pos₁ := by
    unfold pos₁
    split
    · exact Nat.le_add_right _ _
    · exact Nat.le_refl _
  omega

/-- The rest of a token ends before the next one starts. -/
theorem add_runAfter_le_of_inside (h : IsRun t isWord start stop) (hpos : pos ≤ start)
    (hin : inside t pos = true) : pos + t.runAfter isWord pos ≤ start := by
  obtain ⟨hprev, -⟩ := Bool.and_eq_true_iff.1 hin
  have hfirst := h.first
  have hne : start ≠ pos := by
    rintro rfl
    rw [hprev] at hfirst
    cases hfirst
  refine Nat.le_of_not_lt fun hlt => ?_
  have hbefore : t.nextIs isWord (start - 1) = true :=
    Text.nextIs_of_lt_add_runAfter (i := pos) (by omega) (by omega)
  rw [Text.prevIs_iff.2 ⟨by omega, hbefore⟩] at hfirst
  cases hfirst

/-- No token that starts at `pos` or behind it is passed over. -/
theorem nextPlace_le (h : IsRun t isWord start stop) (hpos : pos ≤ start) :
    nextPlace t pos ≤ start := by
  unfold nextPlace
  extract_lets pos₁
  have hpos₁ : pos₁ ≤ start := by
    unfold pos₁
    split
    · exact add_runAfter_le_of_inside h hpos ‹_›
    · exact hpos
  have hother : t.nextIs (!isWord ·) start = false :=
    Text.not_nextIs_of_disjoint (by simp) (h.holds start (Nat.le_refl _) h.lt)
  have := Text.runAfter_le_of_not_nextIs hother hpos₁
  omega

/-- What is come to in the text is the start of a token. -/
theorem isRun_nextPlace (h : nextPlace t pos < t.length) : IsRun t isWord (nextPlace t pos)
    (nextPlace t pos + t.runAfter isWord (nextPlace t pos)) := by
  generalize hplace : nextPlace t pos = place at h ⊢
  unfold nextPlace at hplace
  extract_lets pos₁ at hplace
  have hword : t.nextIs isWord place = true := by
    have hother := t.not_nextIs_add_runAfter (!isWord ·) pos₁
    rwa [hplace, Text.nextIs_not h, Bool.not_eq_false'] at hother
  refine ⟨Nat.lt_add_of_pos_right (Text.runAfter_pos hword),
    fun i hi hlt => Text.nextIs_of_lt_add_runAfter hi hlt, eq_false_of_ne_true fun hprev => ?_,
    t.not_nextIs_add_runAfter isWord place⟩
  by_cases hskip : pos₁ < place
  · have hbefore : t.nextIs (!isWord ·) (place - 1) = true :=
      Text.nextIs_of_lt_add_runAfter (i := pos₁) (by omega) (by omega)
    rw [Text.nextIs_not (by omega), (Text.prevIs_iff.1 hprev).2] at hbefore
    cases hbefore
  · -- Nothing else was skipped, so this is where the rest of a token ended, or not inside one.
    obtain rfl : pos₁ = place := by omega
    by_cases hin : inside t pos = true
    · have hend := t.not_nextIs_add_runAfter isWord pos
      rw [show pos + t.runAfter isWord pos = pos₁ from (if_pos hin).symm, hword] at hend
      cases hend
    · have hsame : pos₁ = pos := if_neg hin
      rw [inside, ← hsame, hprev, hword] at hin
      exact hin rfl

/-- The token behind a span is the nearest one that starts where the span stops or behind. -/
theorem next_eq (t : Text) (s : Span) :
    next t s = (ahead t s.stop).head?.elim (.ok none) fun o => some <$> select t o := by
  rw [next_eq_nextPlace]
  by_cases hend : t.length ≤ nextPlace t s.stop
  · have hnil : ahead t s.stop = [] := List.eq_nil_iff_forall_not_mem.2 fun o ho => by
      obtain ⟨hrun, hpos⟩ := mem_ahead.1 ho
      have := nextPlace_le hrun hpos
      have := hrun.lt
      have := hrun.stop_le_length
      omega
    rw [if_pos hend, hnil]
    rfl
  · have hrun := isRun_nextPlace (Nat.lt_of_not_le hend)
    generalize hstop : nextPlace t s.stop + t.runAfter isWord (nextPlace t s.stop) = stop at hrun
    have hhead : (ahead t s.stop).head? = some (nextPlace t s.stop, stop) := by
      refine head?_eq_some ((Text.pairwise_runs t isWord).sublist List.filter_sublist)
        (mem_ahead.2 ⟨hrun, le_nextPlace t s.stop⟩) fun o ho hlt => ?_
      obtain ⟨ho, hpos⟩ := mem_ahead.1 ho
      have := nextPlace_le ho hpos
      have := ho.lt
      omega
    rw [if_neg hend, hhead, bounds, hrun.sub_runBefore_start, hstop, Option.elim_some, map_select]

/-- Behind the first of some tokens the others follow. -/
theorem ahead_of_cons (h : ahead t pos = o :: rest) : ahead t o.2 = rest := by
  have ho : o ∈ ahead t pos := h ▸ List.mem_cons_self
  obtain ⟨hrun, hpos⟩ := mem_ahead.1 ho
  have hlt := hrun.lt
  refine filter_eq_tail (Text.pairwise_runs t isWord) h (fun run hrun => ?_) (decide_eq_false ?_)
    fun run hrun => decide_eq_true (Nat.le_of_lt hrun)
  · rw [decide_eq_true_eq] at hrun ⊢
    omega
  · omega

/-! ### Backwards -/

/-- Where the token before `pos` stops, or the start of the text. -/
def previousPlace (t : Text) (pos : Nat) : Nat :=
  let pos := if inside t pos then pos - t.runBefore isWord pos else pos
  pos - t.runBefore (!isWord ·) pos

theorem previous_eq_previousPlace (t : Text) (s : Span) : previous t s =
    if previousPlace t s.start = 0 then .ok none
    else do return some (← target t
      (← bounds t (previousPlace t s.start) (previousPlace t s.start))) := rfl

theorem previousPlace_le (t : Text) (pos : Nat) : previousPlace t pos ≤ pos := by
  unfold previousPlace
  extract_lets pos₁
  have hpos : pos₁ ≤ pos := by
    unfold pos₁
    split
    · exact Nat.sub_le _ _
    · exact Nat.le_refl _
  omega

/-- The part of a token before `pos` starts where the one before it has stopped, or behind. -/
theorem le_sub_runBefore_of_inside (h : IsRun t isWord start stop) (hpos : stop ≤ pos)
    (ht : pos ≤ t.length) (hin : inside t pos = true) : stop ≤ pos - t.runBefore isWord pos := by
  obtain ⟨-, hnext⟩ := Bool.and_eq_true_iff.1 hin
  have hlast := h.last
  have hne : stop ≠ pos := by
    rintro rfl
    rw [hnext] at hlast
    cases hlast
  have := Text.runBefore_le_of_not_nextIs ht hlast (by omega)
  omega

/-- No token that stops at `pos` or before it is passed over. -/
theorem le_previousPlace (h : IsRun t isWord start stop) (hpos : stop ≤ pos) (ht : pos ≤ t.length) :
    stop ≤ previousPlace t pos := by
  unfold previousPlace
  extract_lets pos₁
  have hpos₁ : stop ≤ pos₁ ∧ pos₁ ≤ t.length := by
    unfold pos₁
    split
    · exact ⟨le_sub_runBefore_of_inside h hpos ht ‹_›, by omega⟩
    · exact ⟨hpos, ht⟩
  have hlt := h.lt
  have hother : t.nextIs (!isWord ·) (stop - 1) = false :=
    Text.not_nextIs_of_disjoint (by simp) (h.holds (stop - 1) (by omega) (by omega))
  have := Text.runBefore_le_of_not_nextIs hpos₁.2 hother (by omega)
  omega

/-- What is come to in the text is the end of a token. -/
theorem isRun_previousPlace (ht : pos ≤ t.length) (h : previousPlace t pos ≠ 0) :
    IsRun t isWord (previousPlace t pos - t.runBefore isWord (previousPlace t pos))
      (previousPlace t pos) := by
  have hle := Nat.le_trans (previousPlace_le t pos) ht
  generalize hplace : previousPlace t pos = place at h hle ⊢
  unfold previousPlace at hplace
  extract_lets pos₁ at hplace
  have hpos₁ : pos₁ ≤ t.length := by
    unfold pos₁
    split
    · exact Nat.le_trans (Nat.sub_le _ _) ht
    · exact ht
  have hword : t.prevIs isWord place = true := by
    have hother := Text.not_prevIs_sub_runBefore (p := (!isWord ·)) hpos₁
    rwa [hplace, Text.prevIs_not (by omega) hle, Bool.not_eq_false'] at hother
  have hrun := Text.runBefore_pos hle hword
  have hrun_le := t.runBefore_le isWord place
  refine ⟨by omega, fun i hi hlt => Text.nextIs_of_sub_runBefore_le hle hi hlt,
    Text.not_prevIs_sub_runBefore hle, eq_false_of_ne_true fun hnext => ?_⟩
  by_cases hskip : place < pos₁
  · have hbehind : t.nextIs (!isWord ·) place = true :=
      Text.nextIs_of_sub_runBefore_le hpos₁ (Nat.le_of_eq hplace) hskip
    rw [Text.nextIs_not (by omega), hnext] at hbehind
    cases hbehind
  · obtain rfl : pos₁ = place := by omega
    by_cases hin : inside t pos = true
    · have hend := Text.not_prevIs_sub_runBefore (p := isWord) ht
      rw [show pos - t.runBefore isWord pos = pos₁ from (if_pos hin).symm, hword] at hend
      cases hend
    · have hsame : pos₁ = pos := if_neg hin
      rw [inside, ← hsame, hword, hnext] at hin
      exact hin rfl

/-- The token before a span is the nearest one that stops where the span starts or before. -/
theorem previous_eq (hs : s.start ≤ t.length) :
    previous t s = (back t s.start).head?.elim (.ok none) fun o => some <$> select t o := by
  rw [previous_eq_previousPlace]
  by_cases hend : previousPlace t s.start = 0
  · have hnil : back t s.start = [] := List.eq_nil_iff_forall_not_mem.2 fun o ho => by
      obtain ⟨hrun, hpos⟩ := mem_back.1 ho
      have := le_previousPlace hrun hpos hs
      have := hrun.lt
      omega
    rw [if_pos hend, hnil]
    rfl
  · have hrun := isRun_previousPlace hs hend
    generalize hstart : previousPlace t s.start - t.runBefore isWord (previousPlace t s.start) = start
      at hrun
    have hhead : (back t s.start).head? = some (start, previousPlace t s.start) := by
      refine head?_eq_some ((pairwise_reverse_runs t).sublist List.filter_sublist)
        (mem_back.2 ⟨hrun, previousPlace_le t s.start⟩) fun o ho hlt => ?_
      obtain ⟨ho, hpos⟩ := mem_back.1 ho
      have := le_previousPlace ho hpos hs
      have := ho.lt
      omega
    rw [if_neg hend, hhead, bounds, hstart, Text.add_runAfter_eq_self hrun.last, Option.elim_some,
      map_select]

/-- Before the last of some tokens the others stand. -/
theorem back_of_cons (h : back t pos = o :: rest) : back t o.1 = rest := by
  have ho : o ∈ back t pos := h ▸ List.mem_cons_self
  obtain ⟨hrun, hpos⟩ := mem_back.1 ho
  have hlt := hrun.lt
  refine filter_eq_tail (pairwise_reverse_runs t) h (fun run hrun => ?_) (decide_eq_false ?_)
    fun run hrun => decide_eq_true (Nat.le_of_lt hrun)
  · rw [decide_eq_true_eq] at hrun ⊢
    omega
  · omega

end Token

end VoiceEdit
