import VoiceEdit.Proofs.Text.Runs
import VoiceEdit.Proofs.Yields
import VoiceEdit.Word.Search

/-!
# Tokens and their fragments

A search for a part of a word cuts the token around each occurrence into its fragments and
looks for one that holds the occurrence. As fragments are the maximal runs of letters and
digits, that comes to this: the occurrence consists of letters and digits. What is found is
then widened to the whole tokens at its edges.

Results:

* `Text.nextIs_of_mem_runsFrom`, `Text.exists_mem_runsFrom`: runs hold characters of their
  class, and every stretch of such characters lies in a run.
* `Search.accepts_iff`: what a method allows, in terms of the characters.
* `Token.widens_bounds`: a span is widened over word characters, as far as they go.
* `Search.exists_of_filterCandidates_eq_error`: no occurrence is refused within the limit.
-/
namespace VoiceEdit

variable {t : Text} {p : Char → Bool} {s token : Span} {i j pos : Nat}

/-! ## Runs -/

namespace Text

variable {c : Char} {cs rest : List Char} {run : Nat × Nat}

theorem nextIs_cons_sub (h : pos < i) :
    nextIs (c :: rest) p (i - pos) = nextIs rest p (i - (pos + 1)) := by
  rw [nextIs, nextIs, show i - pos = i - (pos + 1) + 1 by omega, List.getElem?_cons_succ]

/-- A run lies behind the first character, or begins with it and is what it begins alone or
with the run right behind it. -/
theorem mem_runsFrom_cons (h : run ∈ runsFrom p pos (c :: rest)) :
    run ∈ runsFrom p (pos + 1) rest ∨ p c = true ∧ run.1 = pos ∧
      (run.2 = pos + 1 ∨ (pos + 1, run.2) ∈ runsFrom p (pos + 1) rest) := by
  rw [runsFrom] at h
  by_cases hc : p c = true
  · rw [if_pos hc] at h
    cases hruns : runsFrom p (pos + 1) rest with
    | nil =>
      rw [hruns, List.mem_singleton] at h
      exact .inr ⟨hc, by rw [h], .inl (by rw [h])⟩
    | cons first more =>
      rw [hruns] at h
      by_cases hnext : first.1 = pos + 1
      · simp only [if_pos hnext] at h
        rcases List.mem_cons.1 h with rfl | h
        · exact .inr ⟨hc, rfl, .inr (List.mem_cons.2 (.inl (Prod.ext hnext.symm rfl)))⟩
        · exact .inl (List.mem_cons_of_mem _ h)
      · simp only [if_neg hnext] at h
        rcases List.mem_cons.1 h with rfl | h
        · exact .inr ⟨hc, rfl, .inl rfl⟩
        · exact .inl h
  · rw [if_neg hc] at h
    exact .inl h

/-- A run holds characters of its class only. -/
theorem nextIs_of_mem_runsFrom (h : run ∈ runsFrom p pos cs) (hi : run.1 ≤ i) (hlt : i < run.2) :
    nextIs cs p (i - pos) = true := by
  induction cs generalizing pos run with
  | nil => cases h
  | cons c rest ih =>
    have later {run : Nat × Nat} (h : run ∈ runsFrom p (pos + 1) rest) (hi : run.1 ≤ i)
        (hlt : i < run.2) : nextIs (c :: rest) p (i - pos) = true := by
      have := mem_runsFrom_bounds h
      rw [nextIs_cons_sub (by omega)]
      exact ih h hi hlt
    rcases mem_runsFrom_cons h with h | ⟨hc, hfirst, hstop⟩
    · exact later h hi hlt
    · by_cases hhead : i = pos
      · rw [hhead, Nat.sub_self]
        exact hc
      · rcases hstop with hstop | hmem
        · omega
        · exact later hmem (by simp only; omega) hlt

/-- The run that the first character begins goes as far as its class does. -/
theorem runsFrom_cons_of_pos (pos : Nat) (rest : List Char) (hc : p c = true) :
    ∃ more, runsFrom p pos (c :: rest) =
      (pos, pos + ((c :: rest).takeWhile p).length) :: more := by
  induction rest generalizing pos c with
  | nil =>
    refine ⟨[], ?_⟩
    rw [runsFrom, if_pos hc, List.takeWhile_cons_of_pos hc]
    rfl
  | cons d rest ih =>
    rw [runsFrom, if_pos hc, List.takeWhile_cons_of_pos hc, List.length_cons]
    by_cases hd : p d = true
    · obtain ⟨more, hmore⟩ := ih (pos + 1) hd
      refine ⟨more, ?_⟩
      rw [hmore]
      simp only [if_true, List.cons.injEq, Prod.mk.injEq, and_true, true_and]
      omega
    · rw [List.takeWhile_cons_of_neg hd]
      cases hruns : runsFrom p (pos + 1) (d :: rest) with
      | nil => exact ⟨[], rfl⟩
      | cons first more =>
        refine ⟨first :: more, ?_⟩
        have hlater : first ∈ runsFrom p (pos + 2) rest := by
          rw [runsFrom, if_neg hd] at hruns
          rw [hruns]
          exact List.mem_cons_self
        have := mem_runsFrom_bounds hlater
        simp only [if_neg (show ¬first.1 = pos + 1 by omega)]
        rfl

/-- One more character before it leaves a run or makes it longer. -/
theorem exists_longer_run (c : Char) (h : run ∈ runsFrom p (pos + 1) rest) :
    ∃ longer ∈ runsFrom p pos (c :: rest), longer.1 ≤ run.1 ∧ run.2 ≤ longer.2 := by
  rw [runsFrom]
  by_cases hc : p c = true
  · rw [if_pos hc]
    cases hruns : runsFrom p (pos + 1) rest with
    | nil =>
      rw [hruns] at h
      cases h
    | cons first more =>
      rw [hruns] at h
      by_cases hnext : first.1 = pos + 1
      · simp only [if_pos hnext]
        rcases List.mem_cons.1 h with rfl | h
        · exact ⟨_, List.mem_cons_self, by simp only; omega, Nat.le_refl _⟩
        · exact ⟨run, List.mem_cons_of_mem _ h, Nat.le_refl _, Nat.le_refl _⟩
      · simp only [if_neg hnext]
        exact ⟨run, List.mem_cons_of_mem _ h, Nat.le_refl _, Nat.le_refl _⟩
  · rw [if_neg hc]
    exact ⟨run, h, Nat.le_refl _, Nat.le_refl _⟩

/-- Every stretch of characters of the class lies in a run. -/
theorem exists_mem_runsFrom (hi : pos ≤ i) (h : i < j)
    (hp : ∀ k, i ≤ k → k < j → nextIs cs p (k - pos) = true) :
    ∃ run ∈ runsFrom p pos cs, run.1 ≤ i ∧ j ≤ run.2 := by
  induction cs generalizing pos with
  | nil => cases hp i (Nat.le_refl _) h
  | cons c rest ih =>
    by_cases hhead : i = pos
    · have hc : p c = true := by
        have hfirst := hp i (Nat.le_refl _) h
        rwa [hhead, Nat.sub_self] at hfirst
      obtain ⟨more, hmore⟩ := runsFrom_cons_of_pos pos rest hc
      refine ⟨_, hmore ▸ List.mem_cons_self, by simp only; omega, ?_⟩
      -- The stretch does not go on behind the run.
      refine Nat.le_of_not_lt fun hlt => ?_
      have hin := hp (pos + ((c :: rest).takeWhile p).length) (by omega) hlt
      have hend := any_getElem?_takeWhile p (c :: rest)
      rw [Nat.add_sub_cancel_left, nextIs, hend] at hin
      cases hin
    · have hlater : pos + 1 ≤ i := by omega
      obtain ⟨run, hrun, hstart, hstop⟩ := ih hlater fun k hk hlt => by
        rw [← nextIs_cons_sub (c := c) (by omega)]
        exact hp k hk hlt
      obtain ⟨longer, hlonger, h₁, h₂⟩ := exists_longer_run c hrun
      exact ⟨longer, hlonger, by omega, by omega⟩

theorem nextIs_slice (hi : token.start ≤ i) (h : i < token.stop) :
    nextIs (t.slice token) p (i - token.start) = t.nextIs p i := by
  rw [nextIs, nextIs, slice, Span.length, List.getElem?_take_of_lt (by omega), List.getElem?_drop,
    Nat.add_sub_cancel' hi]

/-- A fragment of a token around `s` holds `s` if `s` consists of letters and digits. -/
theorem any_fragments_iff (htoken : token.stop ≤ Span.limit) (hc : token.contains s = true)
    (hs : s.start < s.stop) : (t.fragments token).any (·.contains s) = true ↔
      ∀ i, s.start ≤ i → i < s.stop → t.nextIs isAlphanumeric i = true := by
  obtain ⟨hstart, hstop⟩ := Span.contains_iff.1 hc
  rw [List.any_eq_true]
  constructor
  · rintro ⟨fragment, hfragment, hcontains⟩ i hi hlt
    obtain ⟨run, hrun, rfl⟩ := List.mem_map.1 hfragment
    obtain ⟨h₁, h₂⟩ := Span.contains_iff.1 hcontains
    rw [← nextIs_slice (p := isAlphanumeric) (Nat.le_trans hstart hi) (Nat.lt_of_lt_of_le hlt hstop)]
    simp only at h₁ h₂
    cases hspan : (Span.spanning run.1 run.2).toOption with
    | none =>
      rw [hspan, Option.getD_none] at h₁ h₂
      simp only [Span.start_point, Span.stop_point] at h₁ h₂
      omega
    | some span =>
      rw [hspan, Option.getD_some] at h₁ h₂
      have := Span.bounds_of_toOption hspan
      have := mem_runsFrom_bounds hrun
      exact nextIs_of_mem_runsFrom hrun (by omega) (by omega)
  · intro h
    obtain ⟨run, hrun, h₁, h₂⟩ : ∃ run ∈ runsFrom isAlphanumeric token.start (t.slice token),
        run.1 ≤ s.start ∧ s.stop ≤ run.2 := by
      refine exists_mem_runsFrom hstart hs fun k hk hlt => ?_
      rw [nextIs_slice (by omega) (by omega)]
      exact h k hk hlt
    refine ⟨_, List.mem_map_of_mem hrun, Span.contains_iff.2 ?_⟩
    have hbounds := mem_runsFrom_bounds hrun
    have hlen : (t.slice token).length ≤ token.length := List.length_take_le _ _
    have hle := token.start_le_stop
    simp only [Span.length] at hlen
    have hspan : Span.spanning run.1 run.2 = .ok ⟨min run.1 run.2, max run.1 run.2, by omega,
        fun _ => by omega⟩ := Span.ofBounds_eq_ok (by omega) (by omega)
    simp only [hspan, Except.toOption, Option.getD_some]
    omega

end Text

/-! ## What a method allows -/

/-- What has to hold of an occurrence from `start` to `stop`: a part of a word consists of
letters and digits, and across the ends of whole words no word goes on. -/
def SearchMethod.Allows (t : Text) (start stop : Nat) : SearchMethod → Prop
  | .substring => ∀ i, start ≤ i → i < stop → t.nextIs isAlphanumeric i = true
  | .exactWord | .phrase => t.prevIs isWord start = false ∧ t.nextIs isWord stop = false

instance (t : Text) (start stop : Nat) (method : SearchMethod) :
    Decidable (method.Allows t start stop) :=
  match method with
  | .substring =>
    decidable_of_iff (∀ i, i < stop → start ≤ i → t.nextIs isAlphanumeric i = true)
      ⟨fun h i hi hlt => h i hlt hi, fun h i hlt hi => h i hi hlt⟩
  | .exactWord | .phrase =>
    inferInstanceAs (Decidable (t.prevIs isWord start = false ∧ t.nextIs isWord stop = false))

theorem Search.accepts_iff {method : SearchMethod} {ok : Bool} (hs : s.start < s.stop)
    (h : accepts t method s = .ok ok) : ok = true ↔ method.Allows t s.start s.stop := by
  have boundaries : onWordBoundaries t s = true ↔
      t.prevIs isWord s.start = false ∧ t.nextIs isWord s.stop = false := by
    simp only [onWordBoundaries, Bool.and_eq_true, Bool.not_eq_true']
  cases method with
  | substring =>
    obtain ⟨token, htoken, h⟩ := bind_eq_ok.1 h
    cases h
    obtain ⟨hstart, hstop, hlimit⟩ := Span.ofBounds_eq_ok_iff.1 htoken
    exact Text.any_fragments_iff (by omega) (Span.contains_iff.2 (by omega)) hs
  | exactWord | phrase =>
    cases h
    exact boundaries

/-! ## Whole tokens -/

namespace Token

/-- `s` is what lies between `start` and `stop` and, on both sides of it, all the word
characters up to the next character of another kind. -/
structure Widens (t : Text) (start stop : Nat) (s : Span) : Prop where
  start_le : s.start ≤ start
  le_stop : stop ≤ s.stop
  before : ∀ i, s.start ≤ i → i < start → t.nextIs isWord i = true
  behind : ∀ i, stop ≤ i → i < s.stop → t.nextIs isWord i = true
  first : t.prevIs isWord s.start = false
  last : t.nextIs isWord s.stop = false

/-- Where no word goes on, nothing is widened. -/
theorem Widens.eq_self {start stop : Nat} (h : Widens t start stop s)
    (hstart : t.prevIs isWord start = false) (hstop : t.nextIs isWord stop = false) :
    s.start = start ∧ s.stop = stop := by
  have h₁ := h.start_le
  have h₂ := h.le_stop
  refine ⟨?_, ?_⟩
  · by_cases hlt : s.start < start
    · have hin := h.before (start - 1) (by omega) (by omega)
      rw [Text.prevIs_iff.2 ⟨by omega, hin⟩] at hstart
      cases hstart
    · omega
  · by_cases hlt : stop < s.stop
    · have hin := h.behind stop (Nat.le_refl _) hlt
      rw [hstop] at hin
      cases hin
    · omega

theorem widens_bounds {start stop : Nat} (hstart : start ≤ t.length)
    (h : bounds t start stop = .ok s) : Widens t start stop s := by
  obtain ⟨h₁, h₂, -⟩ := Span.ofBounds_eq_ok_iff.1 h
  refine ⟨by omega, by omega, fun i hi hlt => ?_, fun i hi hlt => ?_, ?_, ?_⟩
  · exact Text.nextIs_of_sub_runBefore_le hstart (by omega) hlt
  · exact Text.nextIs_of_lt_add_runAfter (i := stop) hi (by omega)
  · rw [h₁]
    exact Text.not_prevIs_sub_runBefore hstart
  · rw [h₂]
    exact t.not_nextIs_add_runAfter isWord stop

/-- The tokens at the edges of a span are refused only beyond the limit. -/
theorem limit_lt_of_bounds {start stop : Nat} {e : Span.Error} (h : start ≤ stop)
    (he : bounds t start stop = .error e) : Span.limit < stop + t.runAfter isWord stop := by
  refine Nat.lt_of_not_le fun hle => ?_
  rw [bounds, Span.ofBounds_eq_ok (by omega) hle] at he
  cases he

end Token

/-! ## What is refused -/

namespace Search

/-- Candidates are refused only for an occurrence that reaches beyond the limit, with the
token at its end. -/
theorem exists_of_filterCandidates_eq_error {method : SearchMethod} {found : List (Nat × Nat)}
    {e : Span.Error} (h : filterCandidates t method found = .error e) :
    ∃ o ∈ found, Span.limit < o.1 + o.2 + t.runAfter isWord (o.1 + o.2) := by
  induction found with
  | nil => cases h
  | cons o rest ih =>
    rw [filterCandidates] at h
    obtain herr | ⟨s, hs, h⟩ := bind_eq_error.1 h
    · refine ⟨o, List.mem_cons_self, Nat.lt_of_not_le fun hle => ?_⟩
      rw [Span.ofBounds_eq_ok (by omega) (by omega)] at herr
      cases herr
    obtain ⟨-, hstop, -⟩ := Span.ofBounds_eq_ok_iff.1 hs
    obtain herr | ⟨ok, -, h⟩ := bind_eq_error.1 h
    · cases method with
      | substring =>
        obtain herr | ⟨token, -, herr⟩ := bind_eq_error.1 herr
        · have hlong := Token.limit_lt_of_bounds s.start_le_stop herr
          rw [hstop] at hlong
          exact ⟨o, List.mem_cons_self, hlong⟩
        · cases herr
      | exactWord | phrase => cases herr
    obtain herr | ⟨more, -, h⟩ := bind_eq_error.1 h
    · obtain ⟨o', ho', hlong⟩ := ih herr
      exact ⟨o', List.mem_cons_of_mem o ho', hlong⟩
    · cases h

end Search

end VoiceEdit
