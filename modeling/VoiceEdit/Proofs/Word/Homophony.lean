import Mathlib.Data.List.Nodup
import VoiceEdit.Proofs.Text.Lowercase
import VoiceEdit.Word.Homophones

/-!
# Sounding alike

The words of one group should sound alike, and asking for the next spelling again and again
should go through all of them and come back. A table keeps a group as it was added, though:
a word that is added with a later group belongs to that one from then on, and the earlier
group goes on to list it. Where a group has lost no word in this way (`Intact`) the law
holds of its words, and it holds of no others.

Results:

* `tidy_ofGroups`: what a table keeps of the groups it is built from.
* `spellings_addGroup`: adding a group moves its words, and changes nothing for any other.
* `next?_getElem`, `after?_getElem`: the next spelling, and the one after `n` steps.
* `sounds_alike_iff_intact`: the law, for exactly the words whose group is intact.
* `moved_word_still_listed`: a table for which it fails.
-/
namespace VoiceEdit.Homophones

variable {h : Homophones} {group : List Text} {x y : Text}

/-! ## What a table keeps -/

/-- A group as it is kept: two words or more, each once, in lowercase. -/
structure IsGroup (group : List Text) : Prop where
  nodup : group.Nodup
  two_le_length : 2 ≤ group.length
  lowercase_eq : ∀ w ∈ group, w.lowercase = w

/-- Every group is one as it is kept. -/
def Tidy (h : Homophones) : Prop := ∀ group ∈ h.groups, IsGroup group

/-- The words that a table holds. -/
def words (h : Homophones) : List Text := h.groups.flatten

theorem distinctWords_spec {kept : List Text} (hn : kept.Nodup)
    (hl : ∀ w ∈ kept, w.lowercase = w) (group : List Text) :
    (distinctWords kept group).Nodup ∧ ∀ w ∈ distinctWords kept group, w.lowercase = w := by
  induction group generalizing kept with
  | nil => exact ⟨hn, hl⟩
  | cons word rest ih =>
    rw [distinctWords]
    by_cases hskip : (word.trim.lowercase.isEmpty || kept.contains word.trim.lowercase) = true
    · rw [if_pos hskip]
      exact ih hn hl
    · rw [if_neg hskip]
      simp only [Bool.or_eq_true, List.contains_iff_mem, not_or] at hskip
      have hmore : (kept ++ [word.trim.lowercase]).Nodup := by
        rw [← List.concat_eq_append]
        exact hn.concat hskip.2
      refine ih hmore fun w hw => ?_
      rcases List.mem_append.1 hw with hw | hw
      · exact hl w hw
      · rw [List.mem_singleton.1 hw]
        exact Text.lowercase_lowercase _

theorem tidy_addGroup (ht : h.Tidy) (group : List Text) : (h.addGroup group).Tidy := by
  obtain ⟨hnodup, hlower⟩ := distinctWords_spec .nil (fun w hw => by cases hw) group
  unfold addGroup
  split
  · rename_i first second rest heq
    rw [heq] at hnodup hlower
    intro g hg
    rcases List.mem_cons.1 hg with rfl | hg
    · exact ⟨hnodup, by simp only [List.length_cons]; omega, hlower⟩
    · exact ht g hg
  · exact ht

/-- Each group that is added leaves the table tidy, so every table is. -/
theorem tidy_ofGroups (groups : List (List Text)) : (ofGroups groups).Tidy := by
  have tidy_foldl (h : Homophones) (ht : h.Tidy) : (groups.foldl addGroup h).Tidy := by
    induction groups generalizing h with
    | nil => exact ht
    | cons group rest ih => exact ih _ (tidy_addGroup ht group)
  exact tidy_foldl {} fun g hg => by cases hg

theorem Tidy.lowercase_eq (ht : h.Tidy) (hx : x ∈ h.words) : x.lowercase = x := by
  obtain ⟨group, hgroup, hmem⟩ := List.mem_flatten.1 hx
  exact (ht group hgroup).lowercase_eq x hmem

/-! ## The group of a word -/

theorem groupOf?_eq_some_iff :
    h.groupOf? x = some group ↔ x.lowercase ∈ group ∧
      ∃ later earlier, h.groups = later ++ group :: earlier ∧ ∀ g ∈ later, x.lowercase ∉ g := by
  simp only [groupOf?, List.find?_eq_some_iff_append, List.contains_iff_mem, Bool.not_eq_true',
    Bool.eq_false_iff, ne_eq]

/-- Adding a group moves its words to it, and changes nothing for any other word. -/
theorem spellings_addGroup {kept : List Text} (hk : distinctWords [] group = kept)
    (htwo : 2 ≤ kept.length) (x : Text) :
    (h.addGroup group).spellings x = if x.lowercase ∈ kept then kept else h.spellings x := by
  have hgroups : (h.addGroup group).groups = kept :: h.groups := by
    unfold addGroup
    split
    · rename_i first second rest heq
      rw [← hk, heq]
    · rename_i hshort
      match kept, htwo with
      | first :: second :: rest, _ => exact absurd hk (hshort first second rest)
  simp only [spellings, groupOf?, hgroups, List.find?_cons]
  by_cases hx : x.lowercase ∈ kept
  · rw [if_pos hx, List.contains_iff_mem.2 hx, Option.getD_some]
  · rw [if_neg hx, Bool.eq_false_iff.2 (mt List.contains_iff_mem.1 hx)]

/-- The group that a word belongs to has lost no word to a later group. -/
def Intact (h : Homophones) (x : Text) : Prop :=
  ∃ later group earlier, h.groups = later ++ group :: earlier ∧ x ∈ group ∧
    ∀ y ∈ group, ∀ g ∈ later, y ∉ g

/-- An intact group is the group of each of its words. -/
theorem Intact.exists_group (ht : h.Tidy) (hi : h.Intact x) :
    ∃ group, IsGroup group ∧ x ∈ group ∧ ∀ y ∈ group, h.groupOf? y = some group := by
  obtain ⟨later, group, earlier, hsplit, hx, hkept⟩ := hi
  have hgroup : IsGroup group := ht group (by rw [hsplit]; simp)
  refine ⟨group, hgroup, hx, fun y hy => groupOf?_eq_some_iff.2 ?_⟩
  rw [hgroup.lowercase_eq y hy]
  exact ⟨hy, later, earlier, hsplit, hkept y hy⟩

theorem spellings_eq (hg : h.groupOf? x = some group) : h.spellings x = group := by
  rw [spellings, hg, Option.getD_some]

/-- A group whose words all have it for their group is intact: a word that a later group
took would have that one, which does not hold `x`. -/
theorem intact_of_spellings_eq (ht : h.Tidy) (hx : x ∈ h.words)
    (hall : ∀ y ∈ h.spellings x, h.spellings y = h.spellings x) : h.Intact x := by
  have hlower := ht.lowercase_eq hx
  obtain ⟨g₀, hg₀, hx₀⟩ := List.mem_flatten.1 hx
  have hfound : (h.groupOf? x).isSome := by
    rw [groupOf?, List.find?_isSome]
    exact ⟨g₀, hg₀, by rwa [hlower, List.contains_iff_mem]⟩
  obtain ⟨group, hgroup⟩ := Option.isSome_iff_exists.1 hfound
  obtain ⟨hmem, later, earlier, hsplit, hnone⟩ := groupOf?_eq_some_iff.1 hgroup
  rw [hlower] at hmem hnone
  rw [spellings_eq hgroup] at hall
  refine ⟨later, group, earlier, hsplit, hmem, fun y hy g hg hyg => ?_⟩
  have hylower : y.lowercase = y := (ht group (by rw [hsplit]; simp)).lowercase_eq y hy
  obtain ⟨taker, htaker⟩ : ∃ taker, later.find? (·.contains y.lowercase) = some taker := by
    refine Option.isSome_iff_exists.1 (List.find?_isSome.2 ⟨g, hg, ?_⟩)
    rwa [hylower, List.contains_iff_mem]
  have hytaker : h.groupOf? y = some taker := by
    rw [groupOf?, hsplit, List.find?_append, htaker, Option.some_or]
  have hsame : taker = group := by rw [← spellings_eq hytaker, hall y hy]
  exact hnone taker (List.mem_of_find?_eq_some htaker) (hsame ▸ hmem)

/-! ## From spelling to spelling -/

/-- The spelling that asking for the next one `n` times leads to. -/
def after? (h : Homophones) : Nat → Text → Option Text
  | 0, x => some x
  | n + 1, x => (h.after? n x).bind h.next?

variable {i j n : Nat}

theorem next?_getElem (hgroup : IsGroup group) (hall : ∀ y ∈ group, h.groupOf? y = some group)
    (hi : i < group.length) : h.next? group[i] = group[(i + 1) % group.length]? := by
  have hmem : group[i] ∈ group := List.getElem_mem hi
  rw [next?, hall _ hmem, hgroup.lowercase_eq _ hmem]
  simp [hgroup.nodup.idxOf_getElem i hi]

theorem after?_getElem (hgroup : IsGroup group) (hall : ∀ y ∈ group, h.groupOf? y = some group)
    (hi : i < group.length) (n : Nat) : h.after? n group[i] = group[(i + n) % group.length]? := by
  induction n with
  | zero => simp [after?, Nat.mod_eq_of_lt hi, List.getElem?_eq_getElem hi]
  | succ n ih =>
    have hlt : (i + n) % group.length < group.length := Nat.mod_lt _ (by omega)
    rw [after?, ih, List.getElem?_eq_getElem hlt, Option.bind_some, next?_getElem hgroup hall hlt,
      Nat.mod_add_mod, Nat.add_assoc]

/-- Steps around a ring come back where their number is a multiple of its length. -/
theorem add_mod_eq_self_iff {length : Nat} (hi : i < length) :
    (i + n) % length = i ↔ length ∣ n := by
  constructor
  · intro hback
    have hmod : (i + n) % length = i % length := by rw [hback, Nat.mod_eq_of_lt hi]
    have hzero := Nat.sub_mod_eq_zero_of_mod_eq hmod
    rw [Nat.add_sub_cancel_left] at hzero
    exact Nat.dvd_of_mod_eq_zero hzero
  · rintro ⟨k, rfl⟩
    rw [Nat.add_mul_mod_self_left, Nat.mod_eq_of_lt hi]

/-- One step around a ring leads from different places to different places. -/
theorem succ_mod_inj {length : Nat} (hi : i < length) (hj : j < length)
    (hs : (i + 1) % length = (j + 1) % length) : i = j := by
  have hback {k : Nat} (hk : k < length) : ((k + 1) % length + (length - 1)) % length = k := by
    rw [Nat.mod_add_mod, show k + 1 + (length - 1) = k + length by omega, Nat.add_mod_right,
      Nat.mod_eq_of_lt hk]
  rw [← hback hi, hs, hback hj]

theorem after?_eq_some_self_iff (ht : h.Tidy) (hi : h.Intact x) :
    h.after? n x = some x ↔ (h.spellings x).length ∣ n := by
  obtain ⟨group, hgroup, hx, hall⟩ := hi.exists_group ht
  rw [spellings_eq (hall x hx)]
  obtain ⟨i, hlt, rfl⟩ := List.getElem_of_mem hx
  have hmod : (i + n) % group.length < group.length := Nat.mod_lt _ (by omega)
  rw [after?_getElem hgroup hall hlt, List.getElem?_eq_getElem hmod, Option.some.injEq,
    hgroup.nodup.getElem_inj_iff, add_mod_eq_self_iff hlt]

/-- Two words with the same next spelling are one word: that spelling has one group. -/
theorem eq_of_next?_eq (ht : h.Tidy) (hx : h.Intact x) (hy : h.Intact y)
    (hnext : h.next? y = h.next? x) : y = x := by
  obtain ⟨group, hgroup, hmem, hall⟩ := hx.exists_group ht
  obtain ⟨group', hgroup', hmem', hall'⟩ := hy.exists_group ht
  obtain ⟨i, hi, rfl⟩ := List.getElem_of_mem hmem
  obtain ⟨j, hj, rfl⟩ := List.getElem_of_mem hmem'
  have hi' : (i + 1) % group.length < group.length := Nat.mod_lt _ (by omega)
  have hj' : (j + 1) % group'.length < group'.length := Nat.mod_lt _ (by omega)
  rw [next?_getElem hgroup hall hi, next?_getElem hgroup' hall' hj, List.getElem?_eq_getElem hi',
    List.getElem?_eq_getElem hj', Option.some.injEq] at hnext
  have hsame : group' = group := by
    have hin := hall _ (List.getElem_mem hi')
    rw [← hnext, hall' _ (List.getElem_mem hj')] at hin
    exact Option.some.inj hin
  subst hsame
  rw [hgroup.nodup.getElem_inj_iff] at hnext
  simp only [succ_mod_inj hj hi hnext]

/-! ## The law -/

/-- **Sounding alike.** In a table built from any groups in any order, and for any word it
holds: all of its spellings have the spellings it has exactly when the group it belongs to
has lost no word to a later one. Then no other word of such a group has the same next
spelling, and stepping from spelling to spelling is back at the word after as many steps as
it has spellings, and after every multiple of them, but not in between. -/
theorem sounds_alike_iff_intact (groups : List (List Text)) (x : Text)
    (hx : x ∈ (ofGroups groups).words) :
    let h := ofGroups groups
    ((∀ y ∈ h.spellings x, h.spellings y = h.spellings x) ↔ h.Intact x) ∧
      (h.Intact x →
        (∀ y ∈ h.words, h.Intact y → h.next? y = h.next? x → y = x) ∧
          ∀ n, h.after? n x = some x ↔ (h.spellings x).length ∣ n) := by
  intro h
  have ht : h.Tidy := tidy_ofGroups groups
  refine ⟨⟨intact_of_spellings_eq ht hx, fun hi => ?_⟩, fun hi => ⟨?_, ?_⟩⟩
  · obtain ⟨group, -, hmem, hall⟩ := hi.exists_group ht
    rw [spellings_eq (hall x hmem)]
    exact fun y hy => spellings_eq (hall y hy)
  · exact fun y _ hy hnext => eq_of_next?_eq ht hi hy hnext
  · exact fun n => after?_eq_some_self_iff ht hi

/-- The group of `two` has lost no word, and leads around its three spellings. The group of
`so`, which stands in the same table, has lost `sew` to a later one: it is not intact, and
`sew` has other spellings than `so`. -/
theorem sounds_alike_iff_intact_two :
    let groups : List (List Text) := [[['s', 'o'], ['s', 'e', 'w']],
      [['T', 'o'], ['t', 'o', 'o'], ['t', 'w', 'o']], [['s', 'e', 'w'], ['s', 'o', 'w']]]
    let h := ofGroups groups
    let two : Text := ['t', 'w', 'o']
    let so : Text := ['s', 'o']
    let sew : Text := ['s', 'e', 'w']
    two ∈ h.words ∧ h.Intact two ∧ (∀ y ∈ h.spellings two, h.spellings y = h.spellings two) ∧
      (∀ y ∈ h.words, h.Intact y → h.next? y = h.next? two → y = two) ∧
      (∀ n, h.after? n two = some two ↔ 3 ∣ n) ∧
      so ∈ h.words ∧ sew ∈ h.spellings so ∧ h.spellings sew ≠ h.spellings so ∧ ¬h.Intact so := by
  intro groups h two so sew
  have hgroups : h.groups =
      [[sew, ['s', 'o', 'w']], [['t', 'o'], ['t', 'o', 'o'], two], [so, sew]] := by
    decide +kernel
  have hx : two ∈ h.words := by
    rw [words, hgroups]
    decide
  have hlost : so ∈ h.words := by
    rw [words, hgroups]
    decide
  have hi : h.Intact two := ⟨[[sew, ['s', 'o', 'w']]], _, [[so, sew]], hgroups, by decide, by decide⟩
  have hthree : (h.spellings two).length = 3 := by decide +kernel
  have hlisted : sew ∈ h.spellings so := by decide +kernel
  have hother : h.spellings sew ≠ h.spellings so := by decide +kernel
  obtain ⟨hiff, hlaw⟩ := sounds_alike_iff_intact groups two hx
  obtain ⟨hinj, hcycle⟩ := hlaw hi
  have hnot : ¬h.Intact so := fun hintact =>
    hother ((sounds_alike_iff_intact groups so hlost).1.2 hintact sew hlisted)
  exact ⟨hx, hi, hiff.2 hi, hinj, fun n => hthree ▸ hcycle n, hlost, hlisted, hother, hnot⟩

/-- The word `c` moves from one group to another, and the old group goes on to list it: `c`
is a spelling of `a` that has other spellings, it comes next after `b` as after `d`, and
three steps from `a`, which has three spellings, lead to `d`. -/
theorem moved_word_still_listed :
    let h := ofGroups [[['a'], ['b'], ['c']], [['c'], ['d']]]
    h.words = [['c'], ['d'], ['a'], ['b'], ['c']] ∧
      h.spellings ['a'] = [['a'], ['b'], ['c']] ∧ h.spellings ['c'] = [['c'], ['d']] ∧
      h.next? ['b'] = some ['c'] ∧ h.next? ['d'] = some ['c'] ∧
      h.after? 3 ['a'] = some ['d'] := by
  decide +kernel

end VoiceEdit.Homophones
