import VoiceEdit.Proofs.Code.Listing

/-!
# Arguments one by one

Where an argument stands, both scans for its ends come to the characters that bound it, from
every place in it at which no group is open. So it is found from there, without the white
space at its ends; and a step from it, which passes only that white space, comes to the
separator that it shares with its neighbour.

Results:

* `Stands.boundaries`: what bounds an argument.
* `Stands.around?`: the argument is found, with what is removed along with it.
* `Lists.exists_removed`: without it, the others are still listed.
* `Selects.next`, `Selects.previous`: a step leads to the neighbour.
-/
namespace VoiceEdit

open Unicode (isWhitespace)

namespace Argument

variable {t a a' cs blank front back : Text} {as : List Text} {first i k : Nat} {s : Span}
  {f : Target} {o c : Char}

/-! ## What is found -/

/-- `s` is what is left of the argument `a` at `first` without the white space at its ends;
of a blank argument that is nothing, at its end. -/
structure Selects (t : Text) (first : Nat) (a : Text) (s : Span) : Prop where
  start_eq : s.start = first + (a.takeWhile isWhitespace).length
  stop_eq : s.stop = s.start + a.trim.length
  slice_eq : t.slice s = a.trim

/-- A target of which `p` holds is found, unless the text reaches beyond the limit of spans
and no span can be built. -/
def FindsOne (t : Text) (r : Except Span.Error (Option Target)) (p : Target → Prop) : Prop :=
  (∃ f, r = .ok (some f) ∧ p f) ∨ Span.limit < t.length ∧ ∃ e, r = .error e

theorem FindsOne.mono {r : Except Span.Error (Option Target)} {p q : Target → Prop}
    (h : FindsOne t r p) (hpq : ∀ f, p f → q f) : FindsOne t r q := by
  rcases h with ⟨f, hf, hp⟩ | hlong
  · exact .inl ⟨f, hf, hpq f hp⟩
  · exact .inr hlong

/-- What is selected lies between the bounds of the argument, trimmed. -/
theorem Stands.selects_iff (h : Stands t first a) :
    Selects t first a s ↔ (s.start, s.stop) = t.trimmedBounds first (first + a.length) := by
  obtain ⟨-, front, o, c, back, rfl, rfl, -, -⟩ := h
  have hbounds := Text.trimmedBounds_append (front ++ [o]) a (c :: back)
  rw [List.append_assoc, List.singleton_append, List.length_append, List.length_singleton] at hbounds
  rw [hbounds, Prod.mk.injEq]
  constructor
  · rintro ⟨hstart, hstop, -⟩
    exact ⟨hstart, hstart ▸ hstop⟩
  · rintro ⟨hstart, hstop⟩
    have hstop' : s.stop = s.start + a.trim.length := by rw [hstart, hstop]
    refine ⟨hstart, hstop', ?_⟩
    obtain ⟨trail, ha, -, -⟩ := Text.exists_trim_append a
    have htext : front ++ o :: (a ++ c :: back) =
        front ++ o :: a.takeWhile isWhitespace ++ (a.trim ++ (trail ++ c :: back)) := by
      conv =>
        lhs
        rw [ha]
      simp only [List.append_assoc, List.cons_append]
    have hlen : (front ++ o :: a.takeWhile isWhitespace).length = s.start := by
      rw [hstart, List.length_append, List.length_cons]
      omega
    rw [Text.slice, Span.length, hstop', htext, List.drop_left' hlen, Nat.add_sub_cancel_left,
      List.take_left]

/-! ## Boundaries -/

theorem leftBoundary?_append (ha : IsArgument a) (ho : o = '(' ∨ isSeparator o = true)
    (front rest : Text) :
    leftBoundary? (front ++ o :: (a ++ rest)) (front.length + 1 + a.length) = some front.length := by
  have hbefore : Text.before (front ++ o :: (a ++ rest)) (front.length + 1 + a.length) =
      a.reverse ++ o :: front.reverse := by
    have hsplit : front ++ o :: (a ++ rest) = front ++ o :: a ++ rest := by
      rw [List.append_assoc, List.cons_append]
    rw [hsplit, Text.before, List.take_left' (by rw [List.length_append, List.length_cons]; omega),
      List.reverse_append, List.reverse_cons, List.append_assoc]
    rfl
  have hpass := depthAfter_reverse (fun _ => not_isCloseGroup_of_isOpenGroup) (isArgument_iff.1 ha)
  rw [leftBoundary?, hbefore, exitOffset_append hpass, exitOffset_left ho, Option.map_some,
    Option.map_some, List.length_reverse]
  congr 1
  omega

theorem rightBoundary?_append (ha : IsArgument a) (hc : c = ')' ∨ isSeparator c = true)
    (lead back : Text) :
    rightBoundary? (lead ++ (a ++ c :: back)) lead.length = some (lead.length + a.length) := by
  have hafter : Text.after (lead ++ (a ++ c :: back)) lead.length = a ++ c :: back := List.drop_left
  rw [rightBoundary?, hafter, exitOffset_append (isArgument_iff.1 ha), exitOffset_right hc,
    Option.map_some, Option.map_some, Nat.zero_add]

theorem Stands.bounds (h : Stands t first a) : 0 < first ∧ first + a.length < t.length := by
  obtain ⟨-, front, o, c, back, rfl, rfl, -, -⟩ := h
  simp only [List.length_append, List.length_cons]
  omega

/-- Around an argument stand the characters that bound it. -/
theorem Stands.edges (h : Stands t first a) :
    (∃ o, t[first - 1]? = some o ∧ (o = '(' ∨ isSeparator o = true)) ∧
      ∃ c, t[first + a.length]? = some c ∧ (c = ')' ∨ isSeparator c = true) := by
  obtain ⟨-, front, o, c, back, rfl, rfl, ho, hc⟩ := h
  refine ⟨⟨o, ?_, ho⟩, c, ?_, hc⟩
  · rw [Nat.add_sub_cancel, List.getElem?_append_right (Nat.le_refl _), Nat.sub_self,
      List.getElem?_cons_zero]
  · rw [List.getElem?_append_right (by omega),
      show front.length + 1 + a.length - front.length = a.length + 1 by omega,
      List.getElem?_cons_succ, List.getElem?_append_right (Nat.le_refl _), Nat.sub_self,
      List.getElem?_cons_zero]

/-- An argument is bounded on both sides, as seen from where no group of it is open. -/
theorem Stands.boundaries (h : Stands t first a) (hk : k ≤ a.length) (hb : Balanced (a.take k)) :
    Argument.leftBoundary? t (first + k) = some (first - 1) ∧
      Argument.rightBoundary? t (first + k) = some (first + a.length) := by
  obtain ⟨harg, front, o, c, back, rfl, rfl, ho, hc⟩ := h
  obtain ⟨hnear, hfar⟩ := harg.split hb
  have htake : (a.take k).length = k := List.length_take_of_le hk
  constructor
  · have hleft := leftBoundary?_append hnear ho front (a.drop k ++ c :: back)
    rw [← List.append_assoc (a.take k), List.take_append_drop, htake] at hleft
    exact hleft
  · have hright := rightBoundary?_append hfar hc (front ++ o :: a.take k) back
    have htext : front ++ o :: a.take k ++ (a.drop k ++ c :: back) =
        front ++ o :: (a ++ c :: back) := by
      rw [List.append_assoc, List.cons_append, ← List.append_assoc (a.take k),
        List.take_append_drop]
    have hlen : (front ++ o :: a.take k).length = front.length + 1 + k := by
      rw [List.length_append, List.length_cons, htake]
      omega
    rw [htext, hlen, List.length_drop] at hright
    rw [hright]
    congr 1
    omega

/-! ## The argument around a place -/

theorem removed_of_ofBounds {start stop : Nat}
    (h : (do
      let removal ← some <$> Span.ofBounds start stop
      return some (← Target.withRemoval? s removal)) = Except.ok (ε := Span.Error) (some f)) :
    f.span = s ∧ f.removed.start = start ∧ f.removed.stop = stop := by
  obtain ⟨removal, hremoval, h⟩ := bind_eq_ok.1 h
  obtain ⟨r, hr, rfl⟩ := map_eq_ok.1 hremoval
  obtain ⟨hspan, hremoval⟩ := of_withRemoval? h
  obtain ⟨hstart, hstop, -⟩ := Span.ofBounds_eq_ok_iff.1 hr
  rw [Target.removed, hremoval, Option.getD_some]
  exact ⟨hspan, hstart, hstop⟩

/-- Along with an argument goes the separator on its left, or else the one on its right with
the blanks behind it, or else nothing. -/
theorem around?_removed {left right : Nat} (hl : Argument.leftBoundary? t s.start = some left)
    (hr : Argument.rightBoundary? t s.stop = some right) (h : Argument.around? t s = .ok (some f)) :
    (t.nextIs isSeparator left = true → f.removed.start = left ∧ f.removed.stop = f.span.stop) ∧
    (t.nextIs isSeparator left = false → t.nextIs isSeparator right = true →
      f.removed.start = f.span.start ∧
        f.removed.stop = right + 1 + t.runAfter isBlank (right + 1)) ∧
    (t.nextIs isSeparator left = false → t.nextIs isSeparator right = false →
      f.removed = f.span) := by
  rw [Argument.around?, hl, hr] at h
  simp only [Option.isNone_some, Bool.false_and, Bool.false_eq_true, if_false, Option.filter_some,
    Option.map_some, Option.getD_some] at h
  obtain ⟨span, hspan, h⟩ := bind_eq_ok.1 h
  obtain ⟨hstart, hstop, -⟩ := Span.ofBounds_eq_ok_iff.1 hspan
  by_cases hleft : t.nextIs isSeparator left = true
  · rw [if_pos hleft] at h
    obtain ⟨rfl, h₁, h₂⟩ := removed_of_ofBounds h
    simpa [hleft] using ⟨h₁, h₂.trans hstop.symm⟩
  rw [if_neg hleft] at h
  by_cases hright : t.nextIs isSeparator right = true
  · rw [if_pos hright] at h
    obtain ⟨rfl, h₁, h₂⟩ := removed_of_ofBounds h
    simpa [hleft, hright] using ⟨h₁.trans hstart.symm, h₂⟩
  · rw [if_neg hright] at h
    obtain ⟨removal, hnone, h⟩ := bind_eq_ok.1 h
    cases hnone
    obtain ⟨rfl, hremoval⟩ := of_withRemoval? h
    simp [hleft, hright, Target.removed, hremoval]

theorem around?_ne_none {left : Nat} (hl : Argument.leftBoundary? t s.start = some left) :
    Argument.around? t s ≠ .ok none := by
  intro h
  rw [Argument.around?, hl] at h
  simp only [Option.isNone_some, Bool.false_and, Bool.false_eq_true, if_false] at h
  obtain ⟨span, -, h⟩ := bind_eq_ok.1 h
  split at h
  all_goals
    obtain ⟨removal, -, h⟩ := bind_eq_ok.1 h
    obtain ⟨target, -, h⟩ := bind_eq_ok.1 h
    cases h

/-- From every place in an argument where no group of it is open, the argument is found, and
with it what goes when it is deleted. -/
theorem Stands.around? (h : Stands t first a) (hk : k ≤ a.length) (hb : Balanced (a.take k)) :
    FindsOne t (around? t (.point (first + k))) fun f => f.Within t ∧ Selects t first a f.span ∧
      (t.nextIs isSeparator (first - 1) = true →
        f.removed.start = first - 1 ∧ f.removed.stop = f.span.stop) ∧
      (t.nextIs isSeparator (first - 1) = false → t.nextIs isSeparator (first + a.length) = true →
        f.removed.start = f.span.start ∧
          f.removed.stop = first + a.length + 1 + t.runAfter isBlank (first + a.length + 1)) := by
  obtain ⟨hpos, hlen⟩ := h.bounds
  obtain ⟨hl, hr⟩ := h.boundaries hk hb
  have hstop : (Span.point (first + k)).stop ≤ t.length := by
    rw [Span.stop_point]
    omega
  cases hfound : Argument.around? t (.point (first + k)) with
  | error e =>
    refine .inr ⟨Nat.lt_of_not_le fun ht => ?_, e, rfl⟩
    obtain ⟨o, ho, -⟩ := finds_around? ht hstop
    rw [hfound] at ho
    cases ho
  | ok o =>
    cases o with
    | none => exact absurd hfound (around?_ne_none hl)
    | some f =>
      have hspan := (around?_spec hfound).1
      rw [Span.start_point, Span.stop_point, hl, hr, Option.map_some, Option.getD_some,
        Option.getD_some, Nat.sub_add_cancel hpos] at hspan
      obtain ⟨hleft, hright, hnone⟩ := around?_removed hl hr hfound
      refine .inl ⟨f, rfl, ?_, h.selects_iff.2 hspan, hleft, hright⟩
      have htrim := Text.trimmedBounds_le (t := t) (Nat.le_add_right first a.length)
      rw [← hspan] at htrim
      show f.removed.stop ≤ t.length
      cases hsepl : t.nextIs isSeparator (first - 1) with
      | true =>
        have := (hleft hsepl).2
        omega
      | false =>
        cases hsepr : t.nextIs isSeparator (first + a.length) with
        | true =>
          rw [(hright hsepl hsepr).2]
          exact t.add_runAfter_le isBlank hlen
        | false =>
          rw [hnone hsepl hsepr]
          omega

/-! ## What is left -/

/-- When the first argument of several goes, with the separator behind it and the blanks behind
that, a list of the others is left. -/
theorem Lists.exists_removed_first {d : Char} {pre post : Text} (hd : isSeparator d = true)
    (h : Lists as cs) (ht : t = pre ++ '(' :: (a ++ d :: cs ++ ')' :: post))
    (hs : Selects t (pre.length + 1) a f.span)
    (hright : t.nextIs isSeparator pre.length = false →
      t.nextIs isSeparator (pre.length + 1 + a.length) = true → f.removed.start = f.span.start ∧
        f.removed.stop =
          pre.length + 1 + a.length + 1 + t.runAfter isBlank (pre.length + 1 + a.length + 1)) :
    ∃ as' cs', Lists as' cs' ∧ as'.map Text.trim = as.map Text.trim ∧
      t.replace f.removed [] = pre ++ '(' :: (cs' ++ ')' :: post) := by
  obtain ⟨trail, ha, -, -⟩ := Text.exists_trim_append a
  obtain ⟨as', hlists, htrim⟩ :=
    h.exists_tail (Text.all_takeWhile_of_imp (p := isWhitespace) (fun _ h => h) a)
  refine ⟨as', _, hlists, htrim, ?_⟩
  have hbehind : t = pre ++ '(' :: a ++ d :: (cs ++ ')' :: post) := by
    rw [ht]
    simp only [List.append_assoc, List.cons_append]
  have hlast : (pre ++ '(' :: a).length = pre.length + 1 + a.length := by
    rw [List.length_append, List.length_cons]
    omega
  have hrun : t.runAfter isBlank (pre.length + 1 + a.length + 1) = (cs.takeWhile isBlank).length := by
    rw [Text.runAfter, Text.after, ← List.drop_drop, hbehind, List.drop_left' hlast,
      List.drop_succ_cons, List.drop_zero, Text.takeWhile_append_cons rfl]
  have hopen : t.nextIs isSeparator pre.length = false := by
    rw [ht, Text.nextIs_length]
    rfl
  have hclose : t.nextIs isSeparator (pre.length + 1 + a.length) = true := by
    rw [hbehind, ← hlast, Text.nextIs_length]
    exact hd
  obtain ⟨hstart, hstop⟩ := hright hopen hclose
  have htext : t = pre ++ '(' :: a.takeWhile isWhitespace ++ ((a.trim ++ trail) ++
      d :: cs.takeWhile isBlank ++ (cs.dropWhile isBlank ++ ')' :: post)) := by
    rw [ht]
    conv =>
      lhs
      rw [ha, ← List.takeWhile_append_dropWhile (p := isBlank) (l := cs)]
    simp only [List.append_assoc, List.cons_append]
  have hlead := hs.start_eq
  have hlen := congrArg List.length ha
  rw [htext, Text.replace_middle]
  · simp only [List.append_assoc, List.cons_append]
  · rw [hstart, hlead, List.length_append, List.length_cons]
    omega
  · rw [hstop, hrun]
    simp only [List.length_append, List.length_cons] at hlen ⊢
    omega

/-- When a later argument goes, with the separator before it, a list of the others is left. -/
theorem Lists.exists_removed_later {pre post : Text} (h : Lists as cs) (hget : as[i + 1]? = some a)
    (ht : t = pre ++ '(' :: (cs ++ ')' :: post))
    (hs : Selects t (pre.length + 1 + startIn as (i + 1)) a f.span)
    (hleft : t.nextIs isSeparator (pre.length + 1 + startIn as (i + 1) - 1) = true →
      f.removed.start = pre.length + 1 + startIn as (i + 1) - 1 ∧ f.removed.stop = f.span.stop) :
    ∃ as' cs', Lists as' cs' ∧ as'.map Text.trim = (as.eraseIdx (i + 1)).map Text.trim ∧
      t.replace f.removed [] = pre ++ '(' :: (cs' ++ ')' :: post) := by
  obtain ⟨trail, ha, htrail, -⟩ := Text.exists_trim_append a
  obtain ⟨front, d, back, rfl, hd, hfirst, hlists⟩ := h.exists_eraseIdx hget
  obtain ⟨as', hlists, htrim⟩ := hlists trail htrail
  refine ⟨as', _, hlists, htrim, ?_⟩
  have hbefore : (pre ++ '(' :: front).length = pre.length + 1 + startIn as (i + 1) - 1 := by
    rw [← hfirst, List.length_append, List.length_cons]
    omega
  have htext : t = pre ++ '(' :: front ++
      (d :: (a.takeWhile isWhitespace ++ a.trim) ++ (trail ++ (back ++ ')' :: post))) := by
    rw [ht]
    conv =>
      lhs
      rw [ha]
    simp only [List.append_assoc, List.cons_append]
  have hopen : t.nextIs isSeparator (pre.length + 1 + startIn as (i + 1) - 1) = true := by
    rw [htext, ← hbefore, List.cons_append, Text.nextIs_length]
    exact hd
  obtain ⟨hstart, hstop⟩ := hleft hopen
  have hlead := hs.start_eq
  have htrimmed := hs.stop_eq
  rw [htext, Text.replace_middle]
  · simp only [List.append_assoc, List.cons_append]
  · rw [hstart, hbefore]
  · rw [hstop, htrimmed, hlead, hbefore, ← hfirst]
    simp only [List.length_append, List.length_cons]
    omega

/-- When one of several arguments goes, with what goes along with it, a list of the others is
left. -/
theorem Lists.exists_removed {pre post : Text} (h : Lists as cs) (hmany : 2 ≤ as.length)
    (hget : as[i]? = some a) (ht : t = pre ++ '(' :: (cs ++ ')' :: post))
    (hfirst : first = pre.length + 1 + startIn as i) (hs : Selects t first a f.span)
    (hleft : t.nextIs isSeparator (first - 1) = true →
      f.removed.start = first - 1 ∧ f.removed.stop = f.span.stop)
    (hright : t.nextIs isSeparator (first - 1) = false →
      t.nextIs isSeparator (first + a.length) = true → f.removed.start = f.span.start ∧
        f.removed.stop = first + a.length + 1 + t.runAfter isBlank (first + a.length + 1)) :
    ∃ as' cs', Lists as' cs' ∧ as'.map Text.trim = (as.eraseIdx i).map Text.trim ∧
      t.replace f.removed [] = pre ++ '(' :: (cs' ++ ')' :: post) := by
  subst hfirst
  cases i with
  | succ i => exact h.exists_removed_later hget ht hs hleft
  | zero =>
    cases h with
    | last _ =>
      rw [List.length_singleton] at hmany
      omega
    | cons _ hd hrest =>
      cases hget
      exact hrest.exists_removed_first hd ht hs hright

/-! ## Steps -/

theorem boundaryOffset_cons {entry : Char} {enter leave : Char → Bool} {depth : Nat} {left : Bool}
    (hentry : c ≠ entry) (henter : enter c = false) (hleave : leave c = false)
    (hsep : isSeparator c = false) (rest : List Char) :
    boundaryOffset entry enter leave depth left (c :: rest) =
      (boundaryOffset entry enter leave depth left rest).map (· + 1) := by
  simp only [boundaryOffset, if_neg hentry, henter, hleave, hsep, Bool.false_and, Bool.false_eq_true,
    if_false]

theorem ne_parenthesis_of_isWhitespace (h : isWhitespace c = true) : c ≠ '(' ∧ c ≠ ')' := by
  obtain ⟨hopen, hclose, -⟩ := plain_of_isWhitespace h
  constructor
  · rintro rfl
    cases hopen
  · rintro rfl
    cases hclose

theorem nextBoundary?_of_isWhitespace (h : t.nextIs isWhitespace i = true) :
    nextBoundary? t (i + 1) = nextBoundary? t i := by
  obtain ⟨c, hc, hspace⟩ := Text.nextIs_iff.1 h
  obtain ⟨hopen, hclose, hsep⟩ := plain_of_isWhitespace hspace
  rw [nextBoundary?, nextBoundary?, Text.after_eq_cons hc,
    boundaryOffset_cons (ne_parenthesis_of_isWhitespace hspace).1 hopen hclose hsep, Option.map_map]
  congr 1
  funext n
  simp only [Function.comp]
  omega

theorem previousBoundary?_succ_of_isWhitespace (h : t.nextIs isWhitespace i = true) :
    previousBoundary? t (i + 1) = previousBoundary? t i := by
  obtain ⟨c, hc, hspace⟩ := Text.nextIs_iff.1 h
  obtain ⟨hopen, hclose, hsep⟩ := plain_of_isWhitespace hspace
  rw [previousBoundary?, previousBoundary?, Text.before_succ hc,
    boundaryOffset_cons (ne_parenthesis_of_isWhitespace hspace).2 hclose hopen hsep, Option.map_map]
  congr 1
  funext n
  simp only [Function.comp]
  omega

/-- A step forwards comes to the parenthesis or separator that it begins at. -/
theorem nextBoundary?_self (hc : t[i]? = some c) (h : c = '(' ∨ isSeparator c = true) :
    nextBoundary? t i = some i := by
  have hoffset :
      boundaryOffset '(' isOpenGroup isCloseGroup 0 false (c :: t.after (i + 1)) = some 0 := by
    rcases h with rfl | hsep
    · rfl
    · obtain ⟨hopen, hclose⟩ := not_group_of_isSeparator hsep
      simp [boundaryOffset, hopen, hclose, hsep]
  rw [nextBoundary?, Text.after_eq_cons hc, hoffset]
  rfl

/-- A step backwards comes to the parenthesis or separator that it begins behind. -/
theorem previousBoundary?_succ (hc : t[i]? = some c) (h : c = ')' ∨ isSeparator c = true) :
    previousBoundary? t (i + 1) = some i := by
  have hoffset :
      boundaryOffset ')' isCloseGroup isOpenGroup 0 false (c :: t.before i) = some 0 := by
    rcases h with rfl | hsep
    · rfl
    · obtain ⟨hopen, hclose⟩ := not_group_of_isSeparator hsep
      simp [boundaryOffset, hopen, hclose, hsep]
  rw [previousBoundary?, Text.before_succ hc, hoffset]
  rfl

/-- A step forwards that passes white space only comes to the argument behind it. -/
theorem Stands.next (h : Stands t first a) (hs : s.stop < first)
    (hblank : ∀ k, s.stop ≤ k → k + 1 < first → t.nextIs isWhitespace k = true) :
    FindsOne t (next t s) fun f => f.Within t ∧ Selects t first a f.span := by
  obtain ⟨⟨o, hget, ho⟩, -⟩ := h.edges
  have hstep := eq_of_blank (fun _ => nextBoundary?_of_isWhitespace) (Nat.le_sub_one_of_lt hs)
    fun k hk hlt => hblank k hk (Nat.add_lt_of_lt_sub hlt)
  rw [Argument.next, ← hstep, nextBoundary?_self hget ho, Option.map_some,
    Nat.sub_add_cancel h.bounds.1]
  exact (h.around? (k := 0) (Nat.zero_le _) rfl).mono fun f hf => ⟨hf.1, hf.2.1⟩

/-- A step backwards that passes white space only comes to the argument before it. -/
theorem Stands.previous (h : Stands t first a) (hs : first + a.length < s.start)
    (hblank : ∀ k, first + a.length < k → k < s.start → t.nextIs isWhitespace k = true) :
    FindsOne t (previous t s) fun f => f.Within t ∧ Selects t first a f.span := by
  obtain ⟨-, c, hget, hc⟩ := h.edges
  have hstep := eq_of_blank (fun _ => previousBoundary?_succ_of_isWhitespace) (Nat.succ_le_of_lt hs)
    fun k hk hlt => hblank k (Nat.lt_of_succ_le hk) hlt
  have hall : Balanced (a.take a.length) := by
    rw [List.take_length]
    exact h.isArgument.balanced
  rw [Argument.previous, hstep, previousBoundary?_succ hget hc]
  exact (h.around? (Nat.le_refl _) hall).mono fun f hf => ⟨hf.1, hf.2.1⟩

/-- From what is selected of an argument, a step forwards comes to the argument behind it. -/
theorem Selects.next (hs : Selects t first a s) (h : Stands t first a)
    (h' : Stands t (first + a.length + 1) a') :
    FindsOne t (next t s) fun f => f.Within t ∧ Selects t (first + a.length + 1) a' f.span := by
  have hspan := h.selects_iff.1 hs
  have hlen := h.bounds.2
  have htrim := Text.trimmedBounds_le (t := t) (Nat.le_add_right first a.length)
  rw [← hspan] at htrim
  refine h'.next (Nat.lt_succ_of_le htrim.2.2) fun k hk hlt => ?_
  have hbehind : (t.trimmedBounds first (first + a.length)).2 ≤ k := by
    rw [← hspan]
    exact hk
  exact Text.isWhitespace_of_trimmedBounds_le (Nat.le_of_lt hlen) hbehind (Nat.lt_of_succ_lt_succ hlt)

/-- From what is selected of an argument, a step backwards comes to the argument before it. -/
theorem Selects.previous (hs : Selects t (first + a.length + 1) a' s) (h : Stands t first a)
    (h' : Stands t (first + a.length + 1) a') :
    FindsOne t (previous t s) fun f => f.Within t ∧ Selects t first a f.span := by
  have hspan := h'.selects_iff.1 hs
  have htrim := Text.trimmedBounds_le (t := t) (Nat.le_add_right (first + a.length + 1) a'.length)
  rw [← hspan] at htrim
  refine h.previous htrim.1 fun k hk hlt => ?_
  have hbefore :
      k < (t.trimmedBounds (first + a.length + 1) (first + a.length + 1 + a'.length)).1 := by
    rw [← hspan]
    exact hlt
  exact Text.isWhitespace_of_lt_trimmedBounds hk hbefore

end Argument

end VoiceEdit
