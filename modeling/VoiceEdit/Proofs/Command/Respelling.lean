import VoiceEdit.Proofs.Command.NetEffect
import VoiceEdit.Proofs.Text.Capitals
import VoiceEdit.Proofs.Word.Homophony

/-!
# From homophone to homophone

The command for the next homophone looks a word up in lowercase and capitalises what it finds as the
word was. In a table of groups that share no word it goes around the group of the word, and since a
capitalised word tells how it is capitalised, every word on the way is capitalised as the first.

Results:

* `groupOf?_ofGroups`: groups that share no word are kept as they are, and found by each of their words.
* `replacement?_apply`: one step, from a capitalised word to the next one, capitalised alike.
* `run_replacement?`: a command without modifiers rewrites the word that is selected.
* `respelled_cycles`: any number of steps.
-/
namespace VoiceEdit

open Capitalization (IsWord)

/-! ## Groups that share no word -/

namespace Homophones

/-- Groups of words in which no word stands twice. -/
structure IsTable (groups : List (List Text)) : Prop where
  isWord : ∀ group ∈ groups, ∀ w ∈ group, IsWord w
  nodup : ∀ group ∈ groups, group.Nodup
  disjoint : groups.Pairwise fun group group' => ∀ w ∈ group, w ∉ group'

variable {groups : List (List Text)} {group kept : List Text} {h : Homophones} {w : Text}

theorem lowercase_of_isWord (hw : IsWord w) : w.lowercase = w := by
  have hlower := hw.lowercase_apply .lowercase
  rwa [Capitalization.apply, Capitalization.lowerChars_eq hw.mem_wordChars] at hlower

/-- Words that are different are all kept. -/
theorem distinctWords_eq_append (hw : ∀ w ∈ group, IsWord w) (hnodup : group.Nodup)
    (hkept : ∀ w ∈ group, w ∉ kept) : distinctWords kept group = kept ++ group := by
  induction group generalizing kept with
  | nil => rw [distinctWords, List.append_nil]
  | cons w rest ih =>
    have hword := hw w List.mem_cons_self
    obtain ⟨hnot, hrest⟩ := List.nodup_cons.1 hnodup
    have htidy : w.trim.lowercase = w := by
      rw [Text.trim_eq_self fun c hc => (Capitalization.plain_of_mem (hword.mem_wordChars c hc)).isWhitespace_eq,
        lowercase_of_isWord hword]
    have hne : w ≠ [] := by
      obtain ⟨c, rest, rfl, -⟩ := hword.exists_cons
      exact List.cons_ne_nil _ _
    have hskip : ¬(w.isEmpty || kept.contains w) = true := by
      simp [hne, hkept w List.mem_cons_self]
    have hlater : ∀ w' ∈ rest, w' ∉ kept ++ [w] := by
      intro w' hw' hmem
      rcases List.mem_append.1 hmem with hmem | hmem
      · exact hkept w' (List.mem_cons_of_mem _ hw') hmem
      · rw [List.mem_singleton.1 hmem] at hw'
        exact hnot hw'
    simp only [distinctWords, htidy]
    rw [if_neg hskip, ih (fun w' hw' => hw w' (List.mem_cons_of_mem _ hw')) hrest hlater,
      List.append_assoc, List.singleton_append]

theorem addGroup_eq (hw : ∀ w ∈ group, IsWord w) (hnodup : group.Nodup) :
    (h.addGroup group).groups = if 2 ≤ group.length then group :: h.groups else h.groups := by
  have hkept : distinctWords [] group = group :=
    distinctWords_eq_append hw hnodup fun _ _ hmem => by cases hmem
  unfold addGroup
  rw [hkept]
  match group with
  | [] => rfl
  | [_] => rfl
  | first :: second :: rest => exact (if_pos (by simp)).symm

/-- A table keeps the groups of two words or more, the latest first. -/
theorem groups_foldl_addGroup (h : Homophones) (ht : IsTable groups) :
    (groups.foldl addGroup h).groups = (groups.filter (2 ≤ ·.length)).reverse ++ h.groups := by
  induction groups generalizing h with
  | nil => rfl
  | cons group rest ih =>
    have hrest : IsTable rest :=
      ⟨fun g hg => ht.isWord g (List.mem_cons_of_mem _ hg),
        fun g hg => ht.nodup g (List.mem_cons_of_mem _ hg), (List.pairwise_cons.1 ht.disjoint).2⟩
    have hadd := addGroup_eq (h := h) (ht.isWord group List.mem_cons_self)
      (ht.nodup group List.mem_cons_self)
    rw [List.foldl_cons, ih (h.addGroup group) hrest, hadd]
    by_cases htwo : 2 ≤ group.length
    · simp [htwo]
    · simp [htwo]

theorem groups_ofGroups (ht : IsTable groups) :
    (ofGroups groups).groups = (groups.filter (2 ≤ ·.length)).reverse := by
  rw [ofGroups, groups_foldl_addGroup _ ht, List.append_nil]

/-- In a table of such groups each group is the group of its words. -/
theorem groupOf?_ofGroups (ht : IsTable groups) (hg : group ∈ groups) (htwo : 2 ≤ group.length)
    (hw : w ∈ group) : (ofGroups groups).groupOf? w = some group := by
  have hmem : group ∈ (ofGroups groups).groups := by
    rw [groups_ofGroups ht, List.mem_reverse, List.mem_filter]
    exact ⟨hg, decide_eq_true htwo⟩
  obtain ⟨later, earlier, hsplit⟩ := List.append_of_mem hmem
  have hdisjoint : (ofGroups groups).groups.Pairwise fun group group' => ∀ w ∈ group', w ∉ group := by
    rw [groups_ofGroups ht, List.pairwise_reverse]
    exact ht.disjoint.sublist List.filter_sublist
  rw [hsplit] at hdisjoint
  rw [groupOf?_eq_some_iff, lowercase_of_isWord (ht.isWord group hg w hw)]
  refine ⟨hw, later, earlier, hsplit, fun g hlater => ?_⟩
  exact (List.pairwise_append.1 hdisjoint).2.2 g hlater group List.mem_cons_self w hw

end Homophones

/-! ## The command -/

namespace Command

open Homophones (IsTable ofGroups)

variable {c : Command} {host : Host} {groups : List (List Text)} {group : List Text} {i : Nat}

/-- What a command makes of a word when it is given `n` times. -/
def respelled? (c : Command) (host : Host) : Nat → Text → Option Text
  | 0, w => some w
  | n + 1, w => (c.respelled? host n w).bind (c.replacement? host)

/-- From a capitalised word the command leads to the next of its group, capitalised alike. -/
theorem replacement?_apply (hkind : c.kind = .nextHomophone)
    (hlookup : host.env.lookup = (ofGroups groups).lookup) (ht : IsTable groups) (hg : group ∈ groups)
    (htwo : 2 ≤ group.length) (hi : i < group.length) (style : Capitalization) :
    c.replacement? host (style.apply group[i]) =
      group[(i + 1) % group.length]?.map style.apply := by
  have hword : IsWord group[i] := ht.isWord group hg _ (List.getElem_mem hi)
  have hgroup : Homophones.IsGroup group :=
    ⟨ht.nodup group hg, htwo, fun w hw => Homophones.lowercase_of_isWord (ht.isWord group hg w hw)⟩
  have hnext := Homophones.next?_getElem hgroup
    (fun y hy => Homophones.groupOf?_ofGroups ht hg htwo hy) hi
  simp only [replacement?, hkind, hword.lowercase_apply, hword.guess_apply, hlookup]
  exact congrArg (Option.map style.apply) hnext

/-- So many times, it leads to the word so much further on. -/
theorem respelled?_apply (hkind : c.kind = .nextHomophone)
    (hlookup : host.env.lookup = (ofGroups groups).lookup) (ht : IsTable groups) (hg : group ∈ groups)
    (htwo : 2 ≤ group.length) (hi : i < group.length) (style : Capitalization) (n : Nat) :
    c.respelled? host n (style.apply group[i]) =
      group[(i + n) % group.length]?.map style.apply := by
  induction n with
  | zero => simp [respelled?, Nat.mod_eq_of_lt hi, List.getElem?_eq_getElem hi]
  | succ n ih =>
    have hlt : (i + n) % group.length < group.length := Nat.mod_lt _ (by omega)
    rw [respelled?, ih, List.getElem?_eq_getElem hlt, Option.map_some, Option.bind_some,
      replacement?_apply hkind hlookup ht hg htwo hlt, Nat.mod_add_mod, Nat.add_assoc]

/-- A command without modifiers rewrites the word that is selected. -/
theorem run_replacement? {t new : Text} {s : Span} (hmodifiers : c.modifiers = [])
    (hextend : c.extendModifiers = []) (hs : s.stop ≤ t.length) (hlt : s.start < s.stop)
    (hnew : c.replacement? host (t.slice s) = some new) :
    ∃ edits after, c.run host t s = .ok edits ∧
      ({ text := t, selection := s } : Editor).run edits = (after, .ok none) ∧
      after.text = t.replace s new := by
  have hresolve : c.resolve host.env t s = .ok (.ofSpan s) := by
    rw [resolve, hmodifiers, hextend]
    rfl
  have hadjust : adjustSelection s s new.length = .ok (.point (s.start + new.length)) :=
    adjustSelection_of_intersects (Span.intersects_iff.2 ⟨hlt, hlt⟩) _
  have hedits : c.perform host t s (.ofSpan s) = replaceEdits s s new :=
    perform_of_replacement? s hs hnew
  have hok : replaceEdits s s new = .ok [.select s, .insert new] := by
    simp only [replaceEdits, hadjust, Except.mapError, bind, Except.bind, if_true, pure, Except.pure,
      List.append_nil]
  obtain ⟨after, hrun, heffect⟩ := performAll_replaceEdits (e := { text := t, selection := s }) none hs hs hok
  exact ⟨_, after, (run_eq hs hresolve).trans (hedits.trans hok), hrun, heffect.1⟩

theorem apply_ne_nil {w : Text} (hw : IsWord w) (style : Capitalization) : style.apply w ≠ [] := by
  intro hnil
  have hlower := hw.lowercase_apply style
  rw [hnil] at hlower
  obtain ⟨c, rest, heq, -⟩ := hw.exists_cons
  rw [heq] at hlower
  cases hlower

/-- **Around the homophones.** Take a table of groups in which no word stands twice, and a member of
a group of two words or more, as it stands, with a large first letter or in large letters, which is
how words are capitalised. Given so many times, the command for the next homophone leads to the
member so much further on in the group, around its end, written in the same way; given as many times
as there are members it leads back. Where the word is selected in a text, the command without
modifiers puts the next one in its place. -/
theorem respelled_cycles (hkind : c.kind = .nextHomophone)
    (hlookup : host.env.lookup = (ofGroups groups).lookup) (ht : IsTable groups) (hg : group ∈ groups)
    (htwo : 2 ≤ group.length) (hi : i < group.length) (style : Capitalization) :
    (∀ w ∈ group, style.apply w = style.written w) ∧
    (∀ n, ∃ w, group[(i + n) % group.length]? = some w ∧
      c.respelled? host n (style.written group[i]) = some (style.written w)) ∧
    c.respelled? host group.length (style.written group[i]) = some (style.written group[i]) ∧
    (c.modifiers = [] → c.extendModifiers = [] → ∀ t : Text, ∀ s : Span, s.stop ≤ t.length →
      t.slice s = style.written group[i] → ∃ w edits after,
        group[(i + 1) % group.length]? = some w ∧ c.run host t s = .ok edits ∧
        ({ text := t, selection := s } : Editor).run edits = (after, .ok none) ∧
        after.text = t.replace s (style.written w)) := by
  have hlt (n : Nat) : (i + n) % group.length < group.length := Nat.mod_lt _ (by omega)
  have hwritten (w : Text) (hw : w ∈ group) : style.apply w = style.written w :=
    (ht.isWord group hg w hw).apply_eq_written style
  have hform (j : Nat) (hj : j < group.length) : style.apply group[j] = style.written group[j] :=
    hwritten _ (List.getElem_mem hj)
  have hsteps (n : Nat) : c.respelled? host n (style.written group[i]) =
      group[(i + n) % group.length]?.map style.written := by
    rw [← hform i hi, respelled?_apply hkind hlookup ht hg htwo hi style n,
      List.getElem?_eq_getElem (hlt n), Option.map_some, Option.map_some, hform _ (hlt n)]
  refine ⟨hwritten, fun n => ⟨_, List.getElem?_eq_getElem (hlt n), ?_⟩, ?_, ?_⟩
  · rw [hsteps n, List.getElem?_eq_getElem (hlt n), Option.map_some]
  · rw [hsteps, Nat.add_mod_right, Nat.mod_eq_of_lt hi, List.getElem?_eq_getElem hi, Option.map_some]
  · intro hmodifiers hextend t s hs hslice
    have hpos : s.start < s.stop := by
      refine Nat.lt_of_le_of_ne s.start_le_stop fun heq => ?_
      refine apply_ne_nil (ht.isWord group hg _ (List.getElem_mem hi)) style
        ((hform i hi).trans (hslice.symm.trans ?_))
      rw [Text.slice, Span.length, heq, Nat.sub_self, List.take_zero]
    have hnew := replacement?_apply hkind hlookup ht hg htwo hi style
    rw [hform i hi, ← hslice, List.getElem?_eq_getElem (hlt 1), Option.map_some, hform _ (hlt 1)] at hnew
    obtain ⟨edits, after, hrun, heffect, htext⟩ :=
      run_replacement? hmodifiers hextend hs hpos hnew
    exact ⟨_, edits, after, List.getElem?_eq_getElem (hlt 1), hrun, heffect, htext⟩

/-- From `Their` over `They're` and `There` back to `Their`. -/
theorem respelled_cycles_their :
    let there : Text := ['t', 'h', 'e', 'r', 'e']
    let their : Text := ['t', 'h', 'e', 'i', 'r']
    let theyAre : Text := ['t', 'h', 'e', 'y', '\x27', 'r', 'e']
    let groups : List (List Text) := [[['t', 'o'], ['t', 'w', 'o']], [there, their, theyAre]]
    let c : Command := { kind := .nextHomophone }
    let host : Host := { env := ⟨Settings.default, (ofGroups groups).lookup⟩ }
    let style : Capitalization := .firstOnly
    let t : Text := style.written their ++ [' ', 'c', 'a', 't']
    let s : Span := ⟨0, 5, by decide, by decide⟩
    c.kind = .nextHomophone ∧ host.env.lookup = (ofGroups groups).lookup ∧ IsTable groups ∧
      [there, their, theyAre] ∈ groups ∧ style.apply their = ['T', 'h', 'e', 'i', 'r'] ∧
      c.respelled? host 1 ['T', 'h', 'e', 'i', 'r'] = some ['T', 'h', 'e', 'y', '\x27', 'r', 'e'] ∧
      c.respelled? host 2 ['T', 'h', 'e', 'i', 'r'] = some ['T', 'h', 'e', 'r', 'e'] ∧
      c.respelled? host 3 ['T', 'h', 'e', 'i', 'r'] = some ['T', 'h', 'e', 'i', 'r'] ∧
      s.stop ≤ t.length ∧ t.slice s = style.written their ∧ ∃ edits after, c.run host t s = .ok edits ∧
        ({ text := t, selection := s } : Editor).run edits = (after, .ok none) ∧
        after.text = ['T', 'h', 'e', 'y', '\x27', 'r', 'e', ' ', 'c', 'a', 't'] := by
  intro there their theyAre groups c host style t s
  have hwords : ∀ group ∈ groups, ∀ w ∈ group, IsWord w := by decide +kernel
  have ht : IsTable groups := ⟨hwords, by decide, by decide⟩
  have hg : [there, their, theyAre] ∈ groups := by decide
  have hslice : t.slice s = style.written their := by decide
  have hs : s.stop ≤ t.length := by decide
  have hkind : c.kind = .nextHomophone := rfl
  have hlookup : host.env.lookup = (ofGroups groups).lookup := rfl
  obtain ⟨hwritten, hsteps, hback, hrun⟩ :=
    respelled_cycles (i := 1) hkind hlookup ht hg (by decide) (by decide) style
  obtain ⟨w, hw, hone⟩ := hsteps 1
  obtain ⟨w', hw', htwo⟩ := hsteps 2
  obtain ⟨w'', edits, after, hw'', hedits, heditor, htext⟩ := hrun rfl rfl t s hs hslice
  have hplace : [there, their, theyAre][(1 + 1) % 3]? = some theyAre ∧
      [there, their, theyAre][(1 + 2) % 3]? = some there := ⟨rfl, rfl⟩
  obtain rfl : theyAre = w := Option.some.inj (hplace.1.symm.trans hw)
  obtain rfl : there = w' := Option.some.inj (hplace.2.symm.trans hw')
  obtain rfl : theyAre = w'' := Option.some.inj (hplace.1.symm.trans hw'')
  exact ⟨rfl, rfl, ht, hg, hwritten their (by decide), hone, htwo, hback, hs, hslice, edits, after,
    hedits, heditor, htext⟩

end Command

end VoiceEdit
