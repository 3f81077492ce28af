import VoiceEdit.Proofs.Text.Rescan

/-!
# How deep a scan is

A scan through groups counts the groups it has entered and not left. `depthAfter` is that
count behind a stretch, for the scans that pass the stretch. A stretch that is passed one way
is passed the other way too, each element of it at the same depth; and an opener is unclosed
at a place exactly where the scan for its closer comes at least as far.

Results:

* `exitOffset_append`, `exitOffset_eq_none_iff`, `exitOffset_take_eq_none_iff`: a scan goes on behind
  what it passes.
* `depthAfter_append`, `depthAfter_reverse`: stretches put together, and read backwards.
* `depthAfter_eq_some_iff`: what is passed holds no stop outside the groups that it opens.
* `pairwise_unclosed`: unclosed openers are listed from the inside out.
* `Text.mem_groupsAround_iff`, `Text.unclosedBefore?_eq_none_iff`: which openers are unclosed.
-/
namespace VoiceEdit

variable {α : Type} {enter leave stop opens closes : α → Bool} {d e n : Nat} {xs ys as : List α}
  {a : α}

/-! ## One element -/

/-- How deep a scan is behind one element, or `none` where it ends there: it leaves the group
it began in, or meets a `stop` that lies in no group it entered. -/
def depthStep (enter leave stop : α → Bool) (depth : Nat) (a : α) : Option Nat :=
  if enter a then some (depth + 1)
  else if leave a then if depth = 0 then none else some (depth - 1)
  else if depth == 0 && stop a then none
  else some depth

/-- How deep a scan is behind a stretch, or `none` where it ends in it. -/
def depthAfter (enter leave stop : α → Bool) (depth : Nat) (as : List α) : Option Nat :=
  as.foldlM (depthStep enter leave stop) depth

theorem depthAfter_nil : depthAfter enter leave stop d [] = some d := rfl

theorem depthAfter_cons (a : α) (rest : List α) : depthAfter enter leave stop d (a :: rest) =
    (depthStep enter leave stop d a).bind (depthAfter enter leave stop · rest) := rfl

theorem depthAfter_append (xs ys : List α) : depthAfter enter leave stop d (xs ++ ys) =
    (depthAfter enter leave stop d xs).bind (depthAfter enter leave stop · ys) :=
  List.foldlM_append

/-- A scan ends at an element, or goes on behind it. -/
theorem exitOffset_cons_eq (a : α) (rest : List α) : exitOffset enter leave stop d (a :: rest) =
    (depthStep enter leave stop d a).elim (some 0)
      fun e => (exitOffset enter leave stop e rest).map (· + 1) := by
  simp only [exitOffset, depthStep]
  split
  · rfl
  · split
    · cases d <;> rfl
    · split <;> rfl

/-- Read the other way, an element leads back. -/
theorem depthStep_swap (hdisjoint : ∀ a, enter a = true → leave a = false)
    (h : depthStep enter leave stop d a = some e) : depthStep leave enter stop e a = some d := by
  unfold depthStep at h ⊢
  by_cases henter : enter a = true
  · rw [if_pos henter, Option.some.injEq] at h
    subst h
    simp [henter, hdisjoint a henter]
  · by_cases hleave : leave a = true
    · rw [if_neg henter, if_pos hleave] at h
      by_cases hd : d = 0
      · simp [hd] at h
      · rw [if_neg hd, Option.some.injEq] at h
        simp only [if_pos hleave, Option.some.injEq]
        omega
    · rw [if_neg henter, if_neg hleave] at h
      rw [if_neg hleave, if_neg henter]
      by_cases hmet : (d == 0 && stop a) = true
      · rw [if_pos hmet] at h
        cases h
      · rw [if_neg hmet, Option.some.injEq] at h
        subst h
        rw [if_neg hmet]

/-! ## Stretches -/

/-- A scan goes on behind what it passes, as deep as it is there. -/
theorem exitOffset_append (h : depthAfter enter leave stop d xs = some e) (ys : List α) :
    exitOffset enter leave stop d (xs ++ ys) =
      (exitOffset enter leave stop e ys).map (· + xs.length) := by
  induction xs generalizing d with
  | nil =>
    cases h
    simp
  | cons a xs ih =>
    obtain ⟨d', hstep, hrest⟩ := Option.bind_eq_some_iff.1 h
    rw [List.cons_append, exitOffset_cons_eq, hstep, Option.elim_some, ih hrest, Option.map_map]
    rfl

/-- Where a scan ends does not depend on what stands behind. -/
theorem exitOffset_append_of_eq_some (h : exitOffset enter leave stop d xs = some n)
    (ys : List α) : exitOffset enter leave stop d (xs ++ ys) = some n := by
  induction xs generalizing d n with
  | nil => cases h
  | cons a xs ih =>
    rw [List.cons_append, exitOffset_cons_eq]
    rw [exitOffset_cons_eq] at h
    cases hstep : depthStep enter leave stop d a with
    | none =>
      rw [hstep] at h
      exact h
    | some d' =>
      rw [hstep] at h
      obtain ⟨m, hm, rfl⟩ := Option.map_eq_some_iff.1 h
      rw [Option.elim_some, ih hm]
      rfl

/-- A scan that does not end in a stretch passes it. -/
theorem exitOffset_eq_none_iff :
    exitOffset enter leave stop d xs = none ↔ ∃ e, depthAfter enter leave stop d xs = some e := by
  induction xs generalizing d with
  | nil => exact ⟨fun _ => ⟨d, rfl⟩, fun _ => rfl⟩
  | cons a xs ih =>
    rw [exitOffset_cons_eq, depthAfter_cons]
    cases depthStep enter leave stop d a with
    | none => simp
    | some d' => simpa using ih

/-- A scan passes the first `n` elements exactly if it does not end among them. -/
theorem exitOffset_take_eq_none_iff :
    exitOffset enter leave stop d (as.take n) = none ↔
      ∀ k, exitOffset enter leave stop d as = some k → n ≤ k := by
  have hsplit := List.take_append_drop n as
  constructor
  · intro hnone k hk
    obtain ⟨e, he⟩ := exitOffset_eq_none_iff.1 hnone
    have hlt := exitOffset_lt hk
    rw [← hsplit, exitOffset_append he] at hk
    obtain ⟨m, hm, rfl⟩ := Option.map_eq_some_iff.1 hk
    rw [List.length_take] at hlt ⊢
    have := exitOffset_lt hm
    rw [List.length_drop] at this
    omega
  · intro hle
    refine Option.eq_none_iff_forall_ne_some.2 fun k hk => ?_
    have hlt := exitOffset_lt hk
    have hall := exitOffset_append_of_eq_some hk (as.drop n)
    rw [hsplit] at hall
    have := hle k hall
    rw [List.length_take] at hlt
    omega

/-- What is passed one way is passed the other way, from the depth at its end to the depth at
its start. -/
theorem depthAfter_reverse (hdisjoint : ∀ a, enter a = true → leave a = false)
    (h : depthAfter enter leave stop d xs = some e) :
    depthAfter leave enter stop e xs.reverse = some d := by
  induction xs generalizing d with
  | nil =>
    cases h
    rfl
  | cons a xs ih =>
    obtain ⟨d', hstep, hrest⟩ := Option.bind_eq_some_iff.1 h
    rw [List.reverse_cons, depthAfter_append, ih hrest, Option.bind_some, depthAfter_cons,
      depthStep_swap hdisjoint hstep]
    rfl

/-- A scan passes what it passes without stops, if no stop stands where it is in no group that
it entered. -/
theorem depthAfter_eq_some_iff (hstop : ∀ a, stop a = true → enter a = false ∧ leave a = false) :
    depthAfter enter leave stop d xs = some e ↔
      depthAfter enter leave (fun _ => false) d xs = some e ∧
        ∀ k, xs[k]?.any stop = true →
          depthAfter enter leave (fun _ => false) d (xs.take k) ≠ some 0 := by
  have hstep (d : Nat) (a : α) : depthStep enter leave stop d a =
      if d = 0 ∧ stop a = true then none else depthStep enter leave (fun _ => false) d a := by
    by_cases hmet : d = 0 ∧ stop a = true
    · simp [depthStep, hmet, hstop a hmet.2]
    · rw [if_neg hmet]
      unfold depthStep
      simp only [Bool.and_false, Bool.and_eq_true, beq_iff_eq, if_neg hmet]
      simp
  induction xs generalizing d with
  | nil => simp [depthAfter_nil]
  | cons a xs ih =>
    rw [depthAfter_cons, hstep]
    by_cases hmet : d = 0 ∧ stop a = true
    · simp only [if_pos hmet, Option.bind_none, reduceCtorEq, false_iff, not_and]
      intro _ h
      exact h 0 (by simpa using hmet.2) (by rw [hmet.1]; rfl)
    · rw [if_neg hmet, depthAfter_cons]
      cases hd : depthStep enter leave (fun _ => false) d a with
      | none => simp
      | some d' =>
        refine (@ih d').trans (and_congr_right fun _ => ⟨fun h k hk => ?_, fun h k hk => ?_⟩)
        · cases k with
          | zero =>
            intro hzero
            cases hzero
            exact hmet ⟨rfl, by simpa using hk⟩
          | succ k =>
            rw [List.take_succ_cons, depthAfter_cons, hd, Option.bind_some]
            exact h k hk
        · have hk := h (k + 1) hk
          rwa [List.take_succ_cons, depthAfter_cons, hd, Option.bind_some] at hk

/-! ## Which openers are unclosed -/

/-- How many closers wait for their opener, when elements are read backwards. -/
def closersWaiting (opens closes : α → Bool) (waiting : Nat) (near : List α) : Nat :=
  near.foldl (fun n a => if closes a then n + 1 else if opens a then n - 1 else n) waiting

/-- An element is an opener that is unclosed, or not, and the scan goes on behind it. -/
theorem mem_unclosed_cons (a : α) (rest : List α) : n ∈ unclosed opens closes d (a :: rest) ↔
    (rest.length = n ∧ opens a = true ∧ closes a = false ∧ d = 0) ∨
      n ∈ unclosed opens closes (if closes a then d + 1 else if opens a then d - 1 else d) rest := by
  by_cases hcloses : closes a = true
  · simp [unclosed, hcloses]
  · by_cases hopens : opens a = true
    · cases d with
      | zero => simp [unclosed, hcloses, hopens, eq_comm]
      | succ d => simp [unclosed, hcloses, hopens]
    · simp [unclosed, hcloses, hopens]

/-- An opener is unclosed if no closer behind it waits for it. -/
theorem mem_unclosed_iff : n ∈ unclosed opens closes d as ↔
    ∃ near a far, as = near ++ a :: far ∧ far.length = n ∧ opens a = true ∧ closes a = false ∧
      closersWaiting opens closes d near = 0 := by
  induction as generalizing d with
  | nil => simp [unclosed]
  | cons x rest ih =>
    rw [mem_unclosed_cons, ih]
    constructor
    · rintro (⟨hlen, hopens, hcloses, hzero⟩ | ⟨near, a, far, rfl, hlen, hopens, hcloses, hzero⟩)
      · exact ⟨[], x, rest, rfl, hlen, hopens, hcloses, hzero⟩
      · exact ⟨x :: near, a, far, rfl, hlen, hopens, hcloses, hzero⟩
    · rintro ⟨near, a, far, heq, hlen, hopens, hcloses, hzero⟩
      cases near with
      | nil =>
        cases heq
        exact .inl ⟨hlen, hopens, hcloses, hzero⟩
      | cons y near =>
        cases heq
        exact .inr ⟨near, a, far, rfl, hlen, hopens, hcloses, hzero⟩

/-- Openers are listed from the nearest to the farthest. -/
theorem pairwise_unclosed (opens closes : α → Bool) (depth : Nat) (as : List α) :
    (unclosed opens closes depth as).Pairwise (· > ·) := by
  fun_induction unclosed opens closes depth as with
  | case1 => exact .nil
  | case2 _ _ _ _ ih | case4 _ _ _ _ _ ih | case5 _ _ _ _ _ ih => exact ih
  | case3 _ _ _ _ ih => exact .cons (fun _ h => mem_unclosed_lt h) ih

theorem closersWaiting_concat (xs : List α) (a : α) :
    closersWaiting opens closes 0 (xs ++ [a]) =
      if closes a then closersWaiting opens closes 0 xs + 1
      else if opens a then closersWaiting opens closes 0 xs - 1
      else closersWaiting opens closes 0 xs := by
  rw [closersWaiting, List.foldl_append]
  rfl

/-- The scan for a closer passes a stretch in which no more closers wait than groups are open. -/
theorem exitOffset_eq_none_iff_closersWaiting (hdisjoint : ∀ a, opens a = true → closes a = false) :
    exitOffset opens closes (fun _ => false) d xs = none ↔
      closersWaiting opens closes 0 xs.reverse ≤ d := by
  induction xs generalizing d with
  | nil => simp [exitOffset, closersWaiting]
  | cons a xs ih =>
    rw [List.reverse_cons, closersWaiting_concat, exitOffset_cons_eq, depthStep]
    by_cases hopens : opens a = true
    · simp only [if_pos hopens, hdisjoint a hopens, Option.elim_some, Option.map_eq_none_iff, ih]
      simp
    · by_cases hcloses : closes a = true
      · cases d with
        | zero => simp [hopens, hcloses]
        | succ d => simp [hopens, hcloses, ih]
      · simp [hopens, hcloses, ih]

namespace Text

variable {t : Text} {opens closes : Char → Bool} {i o : Nat}

/-- The scan for the closer of an opener begins behind it. -/
theorem closing?_eq (h : t.nextIs opens o = true) : t.closing? opens closes o =
    (exitOffset opens closes (fun _ => false) 0 (t.after (o + 1))).map (o + 1 + ·) := by
  obtain ⟨c, hc, hopens⟩ := nextIs_iff.1 h
  rw [closing?, after_eq_cons hc]
  simp only [if_pos hopens]

/-- The closer of an opener does not stand before `i` exactly if the scan for it passes all
there is before `i`. -/
theorem le_closing?_iff (hi : o < i) (h : t.nextIs opens o = true) :
    (∀ c, t.closing? opens closes o = some c → i ≤ c) ↔
      exitOffset opens closes (fun _ => false) 0 ((t.after (o + 1)).take (i - (o + 1))) = none := by
  rw [closing?_eq h, exitOffset_take_eq_none_iff]
  constructor
  · intro hle n hn
    have := hle (o + 1 + n) (by rw [hn]; rfl)
    omega
  · intro hle c hc
    obtain ⟨n, hn, rfl⟩ := Option.map_eq_some_iff.1 hc
    have := hle n hn
    omega

/-- What stands before `i`, read backwards, taken apart at a character. -/
theorem before_eq_append {c : Char} (hi : o < i) (hc : t[o]? = some c) :
    t.before i = ((t.after (o + 1)).take (i - (o + 1))).reverse ++ c :: t.before o := by
  have hafter : (t.drop o).take (i - o) = c :: (t.after (o + 1)).take (i - (o + 1)) := by
    have hdrop : t.drop o = c :: t.after (o + 1) := after_eq_cons hc
    rw [hdrop, show i - o = i - (o + 1) + 1 by omega, List.take_succ_cons]
  have htake : t.take i = t.take o ++ c :: (t.after (o + 1)).take (i - (o + 1)) := by
    rw [← hafter, ← List.take_add, Nat.add_sub_cancel' (Nat.le_of_lt hi)]
  rw [before, htake, List.reverse_append, List.reverse_cons, List.append_assoc]
  rfl

/-- The openers around a place are those before it whose closers do not stand before it. -/
theorem mem_groupsAround_iff (hdisjoint : ∀ c, opens c = true → closes c = false) :
    o ∈ t.groupsAround opens closes i ↔ o < i ∧ t.nextIs opens o = true ∧
      ∀ c, t.closing? opens closes o = some c → i ≤ c := by
  have hbetween {c : Char} (hi : o < i) (hc : t[o]? = some c) (hopens : opens c = true) :
      closersWaiting opens closes 0 ((t.after (o + 1)).take (i - (o + 1))).reverse = 0 ↔
        ∀ c, t.closing? opens closes o = some c → i ≤ c := by
    rw [le_closing?_iff hi (nextIs_iff.2 ⟨c, hc, hopens⟩),
      exitOffset_eq_none_iff_closersWaiting hdisjoint, Nat.le_zero]
  constructor
  · intro h
    have hlt := mem_unclosed_lt h
    rw [t.length_before] at hlt
    obtain ⟨near, c, far, heq, hlen, hopens, -, hzero⟩ := mem_unclosed_iff.1 h
    have hget := List.getElem?_eq_getElem (show o < t.length by omega)
    have hsplit := before_eq_append (show o < i by omega) hget
    have hfar : (t.before o).length = far.length := by
      rw [t.length_before]
      omega
    obtain ⟨hnear, hrest⟩ := List.append_inj' (hsplit.symm.trans heq) (by simp [hfar])
    rw [List.cons.injEq] at hrest
    rw [hrest.1] at hget
    rw [← hnear] at hzero
    exact ⟨by omega, nextIs_iff.2 ⟨c, hget, hopens⟩, (hbetween (by omega) hget hopens).1 hzero⟩
  · rintro ⟨hi, h, hclosing⟩
    obtain ⟨c, hc, hopens⟩ := nextIs_iff.1 h
    have hlen := (List.getElem?_eq_some_iff.1 hc).1
    refine mem_unclosed_iff.2 ⟨_, c, _, before_eq_append hi hc, ?_, hopens, hdisjoint c hopens,
      (hbetween hi hc hopens).2 hclosing⟩
    rw [t.length_before]
    omega

/-- A place is in no group where every opener before it is closed before it. -/
theorem unclosedBefore?_eq_none_iff (hdisjoint : ∀ c, opens c = true → closes c = false) :
    t.unclosedBefore? opens closes i = none ↔
      ∀ o < i, t.nextIs opens o = true → ∃ c < i, t.closing? opens closes o = some c := by
  rw [unclosedBefore?, List.head?_eq_none_iff, List.eq_nil_iff_forall_not_mem]
  refine forall_congr' fun o => ?_
  rw [mem_groupsAround_iff hdisjoint, not_and, not_and]
  refine imp_congr_right fun _ => imp_congr_right fun _ => ?_
  simp only [Classical.not_forall, Nat.not_le, exists_prop, and_comm]

end Text

end VoiceEdit
