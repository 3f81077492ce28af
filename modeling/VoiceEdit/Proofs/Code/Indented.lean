import Mathlib.Data.List.DropRight
import VoiceEdit.Code.Block
import VoiceEdit.Proofs.Text.Rows
import VoiceEdit.Proofs.Yields

/-!
# The block around an anchor

Lines are indented more or less or are blank, and a block is the lines around an anchor as far as
they are indented at least as far: it ends at lines with content, and beyond each end the nearest
line with content is indented less. What the scans for the anchor and for the two ends answer is
said here of any list of lines, and then of the lines of a text.

Results:

* `IsAnchor.unique`, `IsBlock.unique`: there is at most one anchor, and one block around it.
* `isAnchor_of_anchor?`, `anchor?_eq_none_iff`: which line the anchor is.
* `reaches_extent`, `isBlock_of_reaches`: how far a block goes on either side.
* `indented?_spec`, `indented?_eq_none`: the block of a text.
-/
namespace VoiceEdit.Block

variable {depth : Nat → Nat → Prop} {indents lines run : List (Option Nat)} {t : Text} {s : Span}
  {r : Option Target}
  {n a a' i k level up down first last first' last' : Nat}

/-! ## Anchors and blocks -/

/-- Line `a` is the nearest with content at or above line `n`, or else the nearest below. -/
structure IsAnchor (depth : Nat → Nat → Prop) (n a : Nat) : Prop where
  content : ∃ k, depth a k
  nearest : (a ≤ n ∧ ∀ l k, a < l → l ≤ n → ¬depth l k) ∨ (n < a ∧ ∀ l k, l < a → ¬depth l k)

/-- Lines `first` to `last` are the block of `level` around line `a`: they are at least as deep,
and beyond either end the nearest line with content is not. -/
structure IsBlock (depth : Nat → Nat → Prop) (a level first last : Nat) : Prop where
  first_le : first ≤ a
  le_last : a ≤ last
  first_content : ∃ k, depth first k
  last_content : ∃ k, depth last k
  deep : ∀ l k, first ≤ l → l ≤ last → depth l k → level ≤ k
  above : ∀ l k, l < first → depth l k → (∀ l' k', l < l' → l' < first → ¬depth l' k') → k < level
  below : ∀ l k, last < l → depth l k → (∀ l' k', last < l' → l' < l → ¬depth l' k') → k < level

theorem IsAnchor.unique (h : IsAnchor depth n a) (h' : IsAnchor depth n a') : a = a' := by
  obtain ⟨k, hk⟩ := h.content
  obtain ⟨k', hk'⟩ := h'.content
  rcases h.nearest with ⟨hle, hnone⟩ | ⟨hlt, hnone⟩
  · rcases h'.nearest with ⟨hle', hnone'⟩ | ⟨hlt', hnone'⟩
    · exact Nat.le_antisymm (Nat.le_of_not_lt fun h => hnone' a k h hle hk)
        (Nat.le_of_not_lt fun h => hnone a' k' h hle' hk')
    · exact absurd hk (hnone' a k (by omega))
  · rcases h'.nearest with ⟨hle', hnone'⟩ | ⟨hlt', hnone'⟩
    · exact absurd hk' (hnone a' k' (by omega))
    · exact Nat.le_antisymm (Nat.le_of_not_lt fun h => hnone a' k' h hk')
        (Nat.le_of_not_lt fun h => hnone' a k h hk)

/-- Where some line above line `n` has content, one of them is the nearest. -/
theorem exists_nearest_above {l : Nat} (hl : l < n) (h : depth l k) :
    ∃ m j, l ≤ m ∧ m < n ∧ depth m j ∧ ∀ l' k', m < l' → l' < n → ¬depth l' k' := by
  induction n with
  | zero => exact absurd hl (Nat.not_lt_zero l)
  | succ n ih =>
    by_cases hn : ∃ j, depth n j
    · obtain ⟨j, hj⟩ := hn
      exact ⟨n, j, Nat.le_of_lt_succ hl, Nat.lt_succ_self n, hj, fun l' k' h₁ h₂ => by omega⟩
    · have hne : l ≠ n := by
        rintro rfl
        exact hn ⟨k, h⟩
      obtain ⟨m, j, hle, hlt, hj, hnone⟩ := ih (by omega)
      refine ⟨m, j, hle, by omega, hj, fun l' k' h₁ h₂ hk' => ?_⟩
      by_cases heq : l' = n
      · exact hn ⟨k', heq ▸ hk'⟩
      · exact hnone l' k' h₁ (by omega) hk'

/-- Where some line below line `n` has content, one of them is the nearest. -/
theorem exists_nearest_below {l : Nat} (hl : n < l) (h : depth l k) :
    ∃ m j, n < m ∧ m ≤ l ∧ depth m j ∧ ∀ l' k', n < l' → l' < m → ¬depth l' k' := by
  induction l using Nat.strongRecOn generalizing k with
  | ind l ih =>
    by_cases hnearer : ∃ l' k', n < l' ∧ l' < l ∧ depth l' k'
    · obtain ⟨l', k', hlt, hlt', hk'⟩ := hnearer
      obtain ⟨m, j, hm, hle, hj, hnone⟩ := ih l' hlt' hlt hk'
      exact ⟨m, j, hm, by omega, hj, hnone⟩
    · exact ⟨l, k, hl, Nat.le_refl l, h, fun l' k' h₁ h₂ hk' => hnearer ⟨l', k', h₁, h₂, hk'⟩⟩

/-- Of two blocks around an anchor neither goes on where the other has ended. -/
theorem IsBlock.le (h : IsBlock depth a level first last) (h' : IsBlock depth a level first' last') :
    first' ≤ first ∧ last ≤ last' := by
  obtain ⟨k, hk⟩ := h.first_content
  obtain ⟨j, hj⟩ := h.last_content
  have hle := h.first_le
  have hle' := h'.first_le
  have hge := h.le_last
  have hge' := h'.le_last
  refine ⟨Nat.le_of_not_lt fun hlt => ?_, Nat.le_of_not_lt fun hlt => ?_⟩
  · obtain ⟨m, i, h₁, h₂, hi, hnone⟩ := exists_nearest_above hlt hk
    exact Nat.not_lt_of_le (h.deep m i h₁ (by omega) hi) (h'.above m i h₂ hi hnone)
  · obtain ⟨m, i, h₁, h₂, hi, hnone⟩ := exists_nearest_below hlt hj
    exact Nat.not_lt_of_le (h.deep m i (by omega) h₂ hi) (h'.below m i h₁ hi hnone)

theorem IsBlock.unique (h : IsBlock depth a level first last)
    (h' : IsBlock depth a level first' last') : first = first' ∧ last = last' :=
  ⟨Nat.le_antisymm (h'.le h).1 (h.le h').1, Nat.le_antisymm (h.le h').2 (h'.le h).2⟩

/-! ## The scan for the anchor -/

/-- Line `n` of some lines is indented by `k`. -/
def depthIn (indents : List (Option Nat)) (n k : Nat) : Prop := indents[n]?.join = some k

/-- The last number up to `n` of which `p` holds. -/
theorem of_find?_reverse_range {p : Nat → Bool}
    (h : (List.range (n + 1)).reverse.find? p = some a) :
    a ≤ n ∧ p a = true ∧ ∀ l, a < l → l ≤ n → p l = false := by
  obtain ⟨hp, i, hi, ha, hbefore⟩ := List.find?_eq_some_iff_getElem.1 h
  rw [List.length_reverse, List.length_range] at hi
  rw [List.getElem_reverse, List.getElem_range, List.length_range] at ha
  refine ⟨by omega, hp, fun l hal hln => ?_⟩
  have hl := hbefore (n - l) (by omega)
  rw [List.getElem_reverse, List.getElem_range, List.length_range,
    show n + 1 - 1 - (n - l) = l by omega] at hl
  simpa using hl

theorem isSome_join_iff : (indents[n]?.join).isSome = true ↔ ∃ k, depthIn indents n k :=
  Option.isSome_iff_exists

theorem depthIn.lt_length (h : depthIn indents n k) : n < indents.length := by
  refine Nat.lt_of_not_le fun hle => ?_
  rw [depthIn, List.getElem?_eq_none hle] at h
  cases h

theorem isAnchor_of_anchor? (h : anchor? indents n = some a) : IsAnchor (depthIn indents) n a := by
  rcases Option.or_eq_some_iff.1 h with habove | ⟨hnone, hbelow⟩
  · obtain ⟨hle, hcontent, hblank⟩ := of_find?_reverse_range habove
    refine ⟨isSome_join_iff.1 hcontent, .inl ⟨hle, fun l k hal hln hk => ?_⟩⟩
    exact ne_true_of_eq_false (hblank l hal hln) (isSome_join_iff.2 ⟨k, hk⟩)
  · obtain ⟨hcontent, -, hblank⟩ := List.find?_range_eq_some.1 hbelow
    rw [Bool.and_eq_true, decide_eq_true_eq, isSome_join_iff] at hcontent
    refine ⟨hcontent.2, .inr ⟨hcontent.1, fun l k hla hk => ?_⟩⟩
    have hsome : (indents[l]?.join).isSome = true := isSome_join_iff.2 ⟨k, hk⟩
    -- The lines up to `n` were all blank, and those between `n` and the anchor are too.
    by_cases hln : l ≤ n
    · refine List.find?_eq_none.1 hnone l ?_ hsome
      simpa using Nat.lt_succ_of_le hln
    · have hl := hblank l hla
      simp only [hsome, decide_eq_true (Nat.lt_of_not_le hln)] at hl
      cases hl

theorem anchor?_eq_none_iff :
    anchor? indents n = none ↔ ∀ l k, ¬depthIn indents l k := by
  rw [anchor?, Option.or_eq_none_iff, List.find?_eq_none, List.find?_eq_none]
  constructor
  · rintro ⟨habove, hbelow⟩ l k hk
    have hsome : (indents[l]?.join).isSome = true := isSome_join_iff.2 ⟨k, hk⟩
    by_cases hln : l ≤ n
    · refine habove l ?_ hsome
      simpa using Nat.lt_succ_of_le hln
    · refine hbelow l (List.mem_range.2 hk.lt_length) ?_
      rw [hsome, decide_eq_true (Nat.lt_of_not_le hln)]
      rfl
  · intro hblank
    have hnone (l : Nat) : ¬(indents[l]?.join).isSome = true := fun hsome => by
      obtain ⟨k, hk⟩ := isSome_join_iff.1 hsome
      exact hblank l k hk
    exact ⟨fun l _ => hnone l, fun l _ hl => hnone l (Bool.and_eq_true_iff.1 hl).2⟩

/-! ## The scans for the ends -/

theorem solid_eq (run : List (Option Nat)) :
    solid run = (run.rdropWhile (·.isNone)).length := by rw [solid, List.rdropWhile, List.length_reverse]

/-- From where a run is solid to on, its lines are blank. -/
theorem join_eq_none_of_solid_le (h : solid run ≤ i) : run[i]?.join = none := by
  rw [solid_eq] at h
  rw [← run.rdropWhile_append_rtakeWhile (p := (·.isNone)), List.getElem?_append_right h]
  cases hline : (run.rtakeWhile (·.isNone))[i - (run.rdropWhile (·.isNone)).length]? with
  | none => rfl
  | some indent =>
    exact Option.isNone_iff_eq_none.1 (List.mem_rtakeWhile_imp (List.mem_of_getElem? hline))

theorem depthIn_front_iff (h : run <+: lines) (hi : i < run.length) :
    depthIn lines i k ↔ depthIn run i k := by
  obtain ⟨rest, rfl⟩ := h
  rw [depthIn, depthIn, List.getElem?_append_left hi]

/-- A run is solid up to a line with content. -/
theorem exists_depthIn_of_solid_pos (h : 0 < solid run) : ∃ k, depthIn run (solid run - 1) k := by
  rw [solid_eq] at h ⊢
  have hne := List.ne_nil_of_length_pos h
  have hlast := List.rdropWhile_last_not _ run hne
  rw [Option.isNone_iff_eq_none] at hlast
  obtain ⟨k, hk⟩ := Option.ne_none_iff_exists'.1 hlast
  refine ⟨k, (depthIn_front_iff ( List.rdropWhile_prefix _ run) (Nat.sub_lt h Nat.one_pos)).2 ?_⟩
  rw [depthIn, ← List.getLast?_eq_getElem?, List.getLast?_eq_some_getLast hne, hk]
  rfl

/-- The first `n` of some lines, in the order they are come to from the anchor, are those on that
side that are in the block of `level`. -/
structure Reaches (level : Nat) (lines : List (Option Nat)) (n : Nat) : Prop where
  le_length : n ≤ lines.length
  content : 0 < n → ∃ k, depthIn lines (n - 1) k
  deep : ∀ i k, i < n → depthIn lines i k → level ≤ k
  beyond : ∀ i k, n ≤ i → depthIn lines i k → (∀ j l, n ≤ j → j < i → ¬depthIn lines j l) → k < level

theorem reaches_extent (level : Nat) (lines : List (Option Nat)) :
    Reaches level lines (extent level lines) := by
  unfold extent
  generalize hdeep : (fun indent : Option Nat => indent.all fun n => decide (level ≤ n)) = deep
  have hrun := List.takeWhile_prefix deep (l := lines)
  have hsolid := solid_le (lines.takeWhile deep)
  refine ⟨Nat.le_trans hsolid hrun.length_le, fun hpos => ?_, fun i k hi hk => ?_,
    fun i k hi hk hnearest => ?_⟩
  · obtain ⟨k, hk⟩ := exists_depthIn_of_solid_pos hpos
    exact ⟨k, (depthIn_front_iff hrun (by omega)).2 hk⟩
  · have hk' := Option.join_eq_some_iff.1 ((depthIn_front_iff hrun (by omega)).1 hk)
    have hmem := List.all_eq_true.1 List.all_takeWhile _ (List.mem_of_getElem? hk')
    subst hdeep
    exact of_decide_eq_true hmem
  · -- What is left of the run is blank, and the line behind the run is not deep.
    have hge : (lines.takeWhile deep).length ≤ i := by
      refine Nat.le_of_not_lt fun hlt => ?_
      have hblank := join_eq_none_of_solid_le hi
      rw [(depthIn_front_iff hrun hlt).1 hk] at hblank
      cases hblank
    have hend := Text.any_getElem?_takeWhile deep lines
    have hlt := hk.lt_length
    rw [List.getElem?_eq_getElem (by omega), Option.any_some] at hend
    cases hline : lines[(lines.takeWhile deep).length] with
    | none =>
      rw [hline, ← hdeep] at hend
      cases hend
    | some j =>
      rw [hline, ← hdeep] at hend
      have hj : depthIn lines (lines.takeWhile deep).length j := by
        rw [depthIn, List.getElem?_eq_getElem (by omega), hline]
        rfl
      have heq : i = (lines.takeWhile deep).length :=
        Nat.le_antisymm (Nat.le_of_not_lt fun hlt => hnearest _ j hsolid hlt hj) hge
      rw [heq, depthIn] at hk
      cases hj.symm.trans hk
      exact Nat.lt_of_not_le (of_decide_eq_false hend)

/-- The lines above line `a`, nearest first. -/
theorem depthIn_above_iff (ha : a ≤ indents.length) :
    depthIn (indents.take a).reverse i k ↔ i < a ∧ depthIn indents (a - 1 - i) k := by
  have hlen : (indents.take a).length = a := by rw [List.length_take, Nat.min_eq_left ha]
  by_cases hi : i < a
  · rw [depthIn, depthIn, List.getElem?_reverse (by omega), hlen, List.getElem?_take_of_lt (by omega)]
    exact (and_iff_right hi).symm
  · refine iff_of_false (fun hk => ?_) fun h => hi h.1
    have hlt := hk.lt_length
    rw [List.length_reverse, hlen] at hlt
    exact hi hlt

/-- The lines below line `a`. -/
theorem depthIn_below_iff : depthIn (indents.drop (a + 1)) i k ↔ depthIn indents (a + 1 + i) k := by
  rw [depthIn, depthIn, List.getElem?_drop]

/-- What is reached on either side of an anchor is its block. -/
theorem isBlock_of_reaches (ha : depthIn indents a level)
    (hup : Reaches level (indents.take a).reverse up)
    (hdown : Reaches level (indents.drop (a + 1)) down) :
    IsBlock (depthIn indents) a level (a - up) (a + down) := by
  have hle := Nat.le_of_lt ha.lt_length
  have hup_le : up ≤ a := by
    have := hup.le_length
    rwa [List.length_reverse, List.length_take, Nat.min_eq_left hle] at this
  refine
    { first_le := Nat.sub_le a up
      le_last := Nat.le_add_right a down
      first_content := ?_
      last_content := ?_
      deep := fun l k hfirst hlast hk => ?_
      above := fun l k hl hk hnearest => ?_
      below := fun l k hl hk hnearest => ?_ }
  · by_cases hpos : 0 < up
    · obtain ⟨k, hk⟩ := hup.content hpos
      have hk := ((depthIn_above_iff hle).1 hk).2
      rw [show a - 1 - (up - 1) = a - up by omega] at hk
      exact ⟨k, hk⟩
    · rw [show a - up = a by omega]
      exact ⟨level, ha⟩
  · by_cases hpos : 0 < down
    · obtain ⟨k, hk⟩ := hdown.content hpos
      have hk := depthIn_below_iff.1 hk
      rw [show a + 1 + (down - 1) = a + down by omega] at hk
      exact ⟨k, hk⟩
    · rw [show a + down = a by omega]
      exact ⟨level, ha⟩
  · rcases Nat.lt_trichotomy l a with hlt | rfl | hgt
    · refine hup.deep (a - 1 - l) k (by omega) ((depthIn_above_iff hle).2 ⟨by omega, ?_⟩)
      rwa [show a - 1 - (a - 1 - l) = l by omega]
    · cases ha.symm.trans hk
      exact Nat.le_refl level
    · refine hdown.deep (l - (a + 1)) k (by omega) (depthIn_below_iff.2 ?_)
      rwa [Nat.add_sub_cancel' hgt]
  · refine hup.beyond (a - 1 - l) k (by omega) ((depthIn_above_iff hle).2 ⟨by omega, ?_⟩)
      fun j m h₁ h₂ hm => ?_
    · rwa [show a - 1 - (a - 1 - l) = l by omega]
    · exact hnearest _ m (by omega) (by omega) ((depthIn_above_iff hle).1 hm).2
  · refine hdown.beyond (l - (a + 1)) k (by omega) (depthIn_below_iff.2 ?_) fun j m h₁ h₂ hm => ?_
    · rwa [Nat.add_sub_cancel' (by omega)]
    · exact hnearest _ m (by omega) (by omega) (depthIn_below_iff.1 hm)

/-! ## The block of a text -/

/-- How far each line of a text is indented. -/
def indentsOf (t : Text) : List (Option Nat) :=
  (List.range t.lineCount).map fun n => Text.indentation (t.lineContent n)

theorem depthIn_indentsOf (h : Text.OnlyNewlines t) : depthIn (indentsOf t) = Text.Indented t := by
  funext n k
  rw [Text.indented_iff h, depthIn, indentsOf, List.getElem?_map]
  refine propext ?_
  by_cases hn : n < t.lineCount
  · rw [List.getElem?_range hn]
    exact (and_iff_right hn).symm
  · rw [List.getElem?_eq_none (by rw [List.length_range]; omega)]
    exact iff_of_false (fun h => by cases h) fun h => hn h.1

/-- The target selects lines `first` to `last`, from the first character that is not white space
on, and deleting it takes these lines whole, with the newline behind them if there is one. -/
def Covers (t : Text) (first last : Nat) (f : Target) : Prop :=
  ∃ k start firstStop lastStart stop,
    Text.IndentedLine t first k start firstStop ∧ Text.IsLine t last lastStart stop ∧
      f.span.start = start + k ∧ f.span.stop = stop ∧
      f.removed.start = start ∧ f.removed.stop = if stop < t.length then stop + 1 else stop

theorem indented?_eq_none (h : Text.OnlyNewlines t) (hblank : ∀ n k, ¬Text.Indented t n k) :
    indented? t s = .ok none := by
  have hanchor : anchor? (indentsOf t) (t.lineOf s.start) = none := by
    rw [anchor?_eq_none_iff, depthIn_indentsOf h]
    exact hblank
  unfold indented?
  simp only [indentsOf] at hanchor
  simp only [hanchor]
  rfl

/-- Where lines have content, one of them is the anchor of a line, and has a block. -/
theorem exists_isBlock (hcontent : ∃ l k, depthIn indents l k) (n : Nat) :
    ∃ a level, anchor? indents n = some a ∧ depthIn indents a level ∧
      IsBlock (depthIn indents) a level (a - extent level (indents.take a).reverse)
        (a + extent level (indents.drop (a + 1))) := by
  cases hanchor : anchor? indents n with
  | none =>
    obtain ⟨l, k, hk⟩ := hcontent
    exact absurd hk (anchor?_eq_none_iff.1 hanchor l k)
  | some a =>
    obtain ⟨level, hlevel⟩ := (isAnchor_of_anchor? hanchor).content
    exact ⟨a, level, rfl, hlevel,
      isBlock_of_reaches hlevel (reaches_extent _ _) (reaches_extent _ _)⟩

/-- The bounds of the first line and of the last make up a target that covers the lines. -/
theorem covers_of_lines {start stop firstStop lastStart : Nat}
    (hfirst : Text.IndentedLine t first k start firstStop) (hlast : Text.IsLine t last lastStart stop)
    (h : (do
        let span ← Span.ofBounds (start + k) stop
        let removal ← Span.ofBounds start (min (stop + 1) t.length)
        return some (← Target.withRemoval span removal)) = Except.ok r) :
    ∃ f, r = some f ∧ Covers t first last f := by
  obtain ⟨span, hspan, h⟩ := bind_eq_ok.1 h
  obtain ⟨removal, hremoval, h⟩ := bind_eq_ok.1 h
  obtain ⟨f, hf, h⟩ := bind_eq_ok.1 h
  cases h
  obtain ⟨hspan₁, hspan₂, -⟩ := Span.ofBounds_eq_ok_iff.1 hspan
  obtain ⟨hremoval₁, hremoval₂, -⟩ := Span.ofBounds_eq_ok_iff.1 hremoval
  obtain ⟨hf₁, hf₂⟩ := Target.withRemoval_eq_ok_iff.1 hf
  have hremoved : f.removed = removal := by rw [Target.removed, hf₂, Option.getD_some]
  refine ⟨f, rfl, k, start, firstStop, lastStart, stop, hfirst, hlast, ?_, ?_, ?_, ?_⟩
  · rw [hf₁, hspan₁]
  · rw [hf₁, hspan₂]
  · rw [hremoved, hremoval₁]
  · have hle := hlast.stop_le
    rw [hremoved, hremoval₂]
    by_cases hlt : stop < t.length
    · rw [if_pos hlt, Nat.min_eq_left hlt]
    · rw [if_neg hlt, Nat.min_eq_right (by omega)]
      omega

/-- Where a text has lines with content, what is found is the block around the anchor. -/
theorem indented?_spec (h : Text.OnlyNewlines t) (hcontent : ∃ n k, Text.Indented t n k) (s : Span) :
    ∃ a level first last,
      IsAnchor (Text.Indented t) ((t.take s.start).count '\n') a ∧ Text.Indented t a level ∧
      IsBlock (Text.Indented t) a level first last ∧
      ∀ r, indented? t s = .ok r → ∃ f, r = some f ∧ Covers t first last f := by
  have hdepth := depthIn_indentsOf h
  rw [← hdepth] at hcontent ⊢
  obtain ⟨a, level, hanchor, hlevel, hblock⟩ := exists_isBlock hcontent (t.lineOf s.start)
  have ha := isAnchor_of_anchor? hanchor
  rw [Text.lineOf_eq_count h] at ha
  refine ⟨a, level, _, _, ha, hlevel, hblock, fun r hr => ?_⟩
  unfold indented? at hr
  extract_lets indents indentOf at hr
  have indentOf_eq {l k : Nat} (hk : depthIn indents l k) : indentOf l = k := by
    rw [show indentOf l = (indents[l]?.join).getD 0 from rfl, hk]
    rfl
  rw [show anchor? indents (t.lineOf s.start) = some a from hanchor] at hr
  simp only [indentOf_eq hlevel] at hr
  obtain ⟨k₁, hk₁⟩ := hblock.first_content
  obtain ⟨k₂, hk₂⟩ := hblock.last_content
  have hfirst := indentOf_eq hk₁
  rw [hdepth] at hk₁ hk₂
  obtain ⟨start, _, hline₁⟩ := hk₁
  obtain ⟨_, stop, hline₂⟩ := hk₂
  have hstart := (hline₁.eq_startOfLine h).1
  have hstop := (hline₂.eq_startOfLine h).2
  refine covers_of_lines hline₁ hline₂.toIsLine ?_
  rw [hstart, hstop, ← hfirst]
  exact hr

end VoiceEdit.Block
