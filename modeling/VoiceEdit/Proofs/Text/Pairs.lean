import VoiceEdit.Proofs.Text.Depth

/-!
# Pairs

An opener and a closer are a pair if between them every group that opens closes again and
no other does. The scan that begins behind an opener ends at the closer of its pair, so there
is at most one; and an opener is left unclosed before a place if its closer does not stand there.

Results:

* `head?_unclosed_eq_some_iff`: the innermost unclosed opener, which a scan backwards ends at.
* `pairs_iff`, `pairs_iff_head?_unclosed`: a pair is what the scan for a closer finds, and what the
  scan back for an opener finds.
* `Pairs.unique`: an opener has one closer.
* `closersWaiting_eq_zero_iff`: which openers are unclosed, in any list.
* `Text.closing?_eq_some_iff`, `Text.opening?_eq_some_iff`: a pair is found from either side.
* `Text.unclosedBefore?_eq_some_iff`, `Text.mem_groupsAround_iff_pairs`: which openers are unclosed in
  a text.
-/
namespace VoiceEdit

variable {α : Type} {enter leave opens closes : α → Bool} {as near rest : List α} {a : α}
  {d n o c i : Nat}

/-- The opener at `o` and the closer at `c` are a pair: between them every group that opens
closes again, and no other does. -/
structure Pairs (opens closes : α → Bool) (as : List α) (o c : Nat) : Prop where
  opener : as[o]?.any opens = true
  lt : o < c
  balanced : depthAfter opens closes (fun _ => false) 0 ((as.drop (o + 1)).take (c - (o + 1))) = some 0
  closer : as[c]?.any closes = true

instance (opens closes : α → Bool) (as : List α) (o c : Nat) :
    Decidable (Pairs opens closes as o c) :=
  decidable_of_iff (as[o]?.any opens = true ∧ o < c ∧
      depthAfter opens closes (fun _ => false) 0 ((as.drop (o + 1)).take (c - (o + 1))) = some 0 ∧
      as[c]?.any closes = true)
    ⟨fun h => ⟨h.1, h.2.1, h.2.2.1, h.2.2.2⟩, fun h => ⟨h.opener, h.lt, h.balanced, h.closer⟩⟩

/-! ## Where a scan ends -/

/-- A scan ends at the first element that leaves the group it began in. -/
theorem exitOffset_eq_some_iff (hdisjoint : ∀ a, enter a = true → leave a = false) :
    exitOffset enter leave (fun _ => false) d as = some n ↔
      as[n]?.any leave = true ∧
        depthAfter enter leave (fun _ => false) d (as.take n) = some 0 := by
  induction as generalizing d n with
  | nil => simp [exitOffset]
  | cons a as ih =>
    rw [exitOffset_cons_eq]
    cases n with
    | zero =>
      rw [List.getElem?_cons_zero, Option.any_some, List.take_zero, depthAfter_nil,
        Option.some.injEq]
      unfold depthStep
      by_cases henter : enter a = true
      · simp [henter, hdisjoint a henter]
      · by_cases hleave : leave a = true
        · by_cases hd : d = 0
          · simp [henter, hleave, hd]
          · simp [henter, hleave, hd]
        · simp [henter, hleave]
    | succ n =>
      rw [List.getElem?_cons_succ, List.take_succ_cons, depthAfter_cons]
      cases depthStep enter leave (fun _ => false) d a with
      | none => simp
      | some e => simpa using ih

/-- The innermost unclosed opener is where a scan backwards leaves the group that it began in. -/
theorem head?_unclosed : (unclosed opens closes d as).head? =
    (exitOffset closes opens (fun _ => false) d as).map (as.length - 1 - ·) := by
  induction as generalizing d with
  | nil => rfl
  | cons a rest ih =>
    have hbehind (o : Option Nat) : (o.map (· + 1)).map ((a :: rest).length - 1 - ·) =
        o.map (rest.length - 1 - ·) := by
      rw [Option.map_map]
      congr 1
      funext n
      simp only [Function.comp, List.length_cons]
      omega
    by_cases hcloses : closes a = true
    · simp only [unclosed, exitOffset, if_pos hcloses, hbehind, ih]
    · by_cases hopens : opens a = true
      · cases d with
        | zero => simp [unclosed, exitOffset, hcloses, hopens]
        | succ d => simp only [unclosed, exitOffset, if_neg hcloses, if_pos hopens, hbehind, ih]
      · simp only [unclosed, exitOffset, if_neg hcloses, if_neg hopens, Bool.and_false,
          Bool.false_eq_true, if_false, hbehind, ih]

/-- Read backwards from `i`, the innermost unclosed opener is the one right behind which
everything is balanced. -/
theorem head?_unclosed_eq_some_iff (hdisjoint : ∀ a, opens a = true → closes a = false)
    (hi : i ≤ as.length) : (unclosed opens closes 0 (as.take i).reverse).head? = some o ↔
      o < i ∧ as[o]?.any opens = true ∧
        depthAfter opens closes (fun _ => false) 0 ((as.drop (o + 1)).take (i - (o + 1))) = some 0 := by
  have hdisjoint' (a : α) (h : closes a = true) : opens a = false :=
    eq_false_of_ne_true fun hopens => by simp [hdisjoint a hopens] at h
  have hlen : (as.take i).reverse.length = i := by
    rw [List.length_reverse, List.length_take]
    exact Nat.min_eq_left hi
  -- The stretch behind an opener, and the same stretch as the scan backwards passes it.
  have hopener (ho : o < i) : (as.take i).reverse[i - (o + 1)]? = as[o]? := by
    rw [List.getElem?_reverse (by rw [List.length_take]; omega), List.length_take,
      Nat.min_eq_left hi, List.getElem?_take_of_lt (by omega)]
    congr 1
    omega
  have hbalanced (ho : o < i) :
      depthAfter closes opens (fun _ => false) 0 ((as.take i).reverse.take (i - (o + 1))) = some 0 ↔
        depthAfter opens closes (fun _ => false) 0 ((as.drop (o + 1)).take (i - (o + 1))) = some 0 := by
    have hstretch : (as.take i).reverse.take (i - (o + 1)) =
        ((as.drop (o + 1)).take (i - (o + 1))).reverse := by
      rw [List.take_reverse, List.length_take, Nat.min_eq_left hi, List.drop_take]
      congr 3 <;> omega
    rw [hstretch]
    refine ⟨fun h => ?_, depthAfter_reverse hdisjoint⟩
    simpa using depthAfter_reverse hdisjoint' h
  rw [head?_unclosed, Option.map_eq_some_iff, hlen]
  constructor
  · rintro ⟨n, hn, rfl⟩
    have hlt := exitOffset_lt hn
    rw [hlen] at hlt
    obtain ⟨hopens, hdepth⟩ := (exitOffset_eq_some_iff hdisjoint').1 hn
    have ho : i - 1 - n < i := by omega
    rw [show n = i - (i - 1 - n + 1) by omega] at hopens hdepth
    rw [hopener ho] at hopens
    exact ⟨ho, hopens, (hbalanced ho).1 hdepth⟩
  · rintro ⟨ho, hopens, hdepth⟩
    refine ⟨i - (o + 1), (exitOffset_eq_some_iff hdisjoint').2 ⟨?_, (hbalanced ho).2 hdepth⟩, by omega⟩
    rw [hopener ho]
    exact hopens

/-! ## Pairs -/

/-- The scan behind an opener ends at the closer of its pair. -/
theorem pairs_iff (hdisjoint : ∀ a, opens a = true → closes a = false)
    (ho : as[o]?.any opens = true) : Pairs opens closes as o c ↔
      (exitOffset opens closes (fun _ => false) 0 (as.drop (o + 1))).map (o + 1 + ·) = some c := by
  rw [Option.map_eq_some_iff]
  constructor
  · intro h
    refine ⟨c - (o + 1), (exitOffset_eq_some_iff hdisjoint).2 ⟨?_, h.balanced⟩, ?_⟩
    · rw [List.getElem?_drop, Nat.add_sub_cancel' h.lt]
      exact h.closer
    · exact Nat.add_sub_cancel' h.lt
  · rintro ⟨k, hk, rfl⟩
    obtain ⟨hcloses, hbalanced⟩ := (exitOffset_eq_some_iff hdisjoint).1 hk
    rw [List.getElem?_drop] at hcloses
    refine ⟨ho, by omega, ?_, hcloses⟩
    rwa [Nat.add_sub_cancel_left]

/-- The scan backwards from a closer ends at the opener of its pair. -/
theorem pairs_iff_head?_unclosed (hdisjoint : ∀ a, opens a = true → closes a = false)
    (hc : as[c]?.any closes = true) : Pairs opens closes as o c ↔
      (unclosed opens closes 0 (as.take c).reverse).head? = some o := by
  have hle : c ≤ as.length := by
    refine Nat.le_of_not_lt fun hlt => ?_
    rw [List.getElem?_eq_none (Nat.le_of_lt hlt)] at hc
    cases hc
  rw [head?_unclosed_eq_some_iff hdisjoint hle]
  exact ⟨fun h => ⟨h.lt, h.opener, h.balanced⟩,
    fun ⟨hlt, hopens, hbalanced⟩ => ⟨hopens, hlt, hbalanced, hc⟩⟩

theorem Pairs.unique {c' : Nat} (hdisjoint : ∀ a, opens a = true → closes a = false)
    (h : Pairs opens closes as o c) (h' : Pairs opens closes as o c') : c = c' :=
  Option.some.inj (((pairs_iff hdisjoint h.opener).1 h).symm.trans
    ((pairs_iff hdisjoint h'.opener).1 h'))

theorem Pairs.lt_length (h : Pairs opens closes as o c) : c < as.length := by
  refine Nat.lt_of_not_le fun hle => ?_
  have hcloses := h.closer
  rw [List.getElem?_eq_none hle] at hcloses
  cases hcloses

/-- A list read backwards from `i`, taken apart at an element. -/
theorem of_reverse_take_eq (h : (as.take i).reverse = near ++ a :: rest) :
    rest.length < i ∧ as[rest.length]? = some a ∧
      near = ((as.drop (rest.length + 1)).take (i - (rest.length + 1))).reverse := by
  have htake : as.take i = rest.reverse ++ a :: near.reverse := by
    rw [← List.reverse_reverse (as.take i), h, List.reverse_append, List.reverse_cons,
      List.append_assoc, List.singleton_append]
  have hlen := congrArg List.length htake
  rw [List.length_take, List.length_append, List.length_cons, List.length_reverse] at hlen
  have hlt : rest.length < i := by omega
  refine ⟨hlt, ?_, ?_⟩
  · rw [← List.getElem?_take_of_lt hlt, htake, List.getElem?_append_right (by simp)]
    simp
  · rw [← List.drop_take, htake, List.append_cons, List.drop_left' (by simp),
      List.reverse_reverse]

/-- No closer waits for an opener, read backwards from `i`, exactly if the closer of its
pair, where there is one, does not stand before `i`. -/
theorem closersWaiting_eq_zero_iff (hdisjoint : ∀ a, opens a = true → closes a = false)
    (hi : o < i) (ho : as[o]?.any opens = true) :
    closersWaiting opens closes 0 ((as.drop (o + 1)).take (i - (o + 1))).reverse = 0 ↔
      ∀ c, Pairs opens closes as o c → i ≤ c := by
  rw [← Nat.le_zero, ← exitOffset_eq_none_iff_closersWaiting hdisjoint, exitOffset_take_eq_none_iff]
  constructor
  · intro h c hc
    obtain ⟨k, hk, rfl⟩ := Option.map_eq_some_iff.1 ((pairs_iff hdisjoint ho).1 hc)
    have := h k hk
    omega
  · intro h k hk
    have := h (o + 1 + k) ((pairs_iff hdisjoint ho).2 (Option.map_eq_some_iff.2 ⟨k, hk, rfl⟩))
    omega

namespace Text

variable {t : Text} {opens closes : Char → Bool} {i o c : Nat}

/-- The closer of an opener is the other of its pair. -/
theorem closing?_eq_some_iff (hdisjoint : ∀ c, opens c = true → closes c = false) :
    t.closing? opens closes o = some c ↔ Pairs opens closes t o c := by
  by_cases ho : t.nextIs opens o = true
  · rw [closing?_eq ho]
    exact (pairs_iff hdisjoint ho).symm
  · refine iff_of_false (fun h => ?_) fun h => ho h.opener
    unfold closing? at h
    split at h
    · cases h
    · rename_i d rest hafter
      split at h
      · rename_i hd
        refine ho (nextIs_iff.2 ⟨d, ?_, hd⟩)
        have hget := congrArg (·[0]?) hafter
        simpa [after] using hget
      · cases h

/-- A place lies in the group of an opener right behind stretches that are balanced. -/
theorem unclosedBefore?_eq_some_iff (hdisjoint : ∀ c, opens c = true → closes c = false)
    (hi : i ≤ t.length) : t.unclosedBefore? opens closes i = some o ↔
      o < i ∧ t.nextIs opens o = true ∧
        depthAfter opens closes (fun _ => false) 0 ((t.after (o + 1)).take (i - (o + 1))) = some 0 :=
  head?_unclosed_eq_some_iff hdisjoint hi

/-- The opener of a closer is the other of its pair. -/
theorem opening?_eq_some_iff (hdisjoint : ∀ c, opens c = true → closes c = false) :
    t.opening? opens closes c = some o ↔ Pairs opens closes t o c := by
  unfold opening?
  by_cases hcloses : t.nextIs closes c = true
  · rw [if_pos hcloses]
    exact (pairs_iff_head?_unclosed hdisjoint hcloses).symm
  · rw [if_neg hcloses]
    refine iff_of_false nofun fun h => hcloses h.closer

/-- The openers around a place are those before it whose pair does not end before it. -/
theorem mem_groupsAround_iff_pairs (hdisjoint : ∀ c, opens c = true → closes c = false) :
    o ∈ t.groupsAround opens closes i ↔ o < i ∧ t.nextIs opens o = true ∧
      ∀ c, Pairs opens closes t o c → i ≤ c := by
  rw [mem_groupsAround_iff hdisjoint]
  simp only [closing?_eq_some_iff hdisjoint]

end Text

end VoiceEdit
