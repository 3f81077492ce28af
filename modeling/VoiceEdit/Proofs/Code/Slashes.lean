import VoiceEdit.Proofs.Code.Overlapping

/-!
# The slashes behind a colon

Two slashes begin a comment unless a colon stands right before them, which is asked of each place alone.
So in a run of slashes behind a colon the first place begins none, and the last, with no slash behind it,
does not either. Every place between does, the second of three slashes for one, and as that is the first
of them it is the one that is taken.

Results:

* `UrlSlashes.begins_iff`: which slashes of a run may begin a comment.
* `UrlSlashes.startOfLine_le`: no line starts among them.
* `UrlSlashes.eq_of_leads`, `UrlSlashes.leads`: which of them does, on the line it leads.
-/
namespace VoiceEdit.Comment

variable {t marker : Text} {cs : List Comment} {c : Comment} {i j k n : Nat}

/-- A run of two or more slashes goes from `i` to `j`, right behind a colon. -/
structure UrlSlashes (t : Text) (i j : Nat) : Prop where
  colon : t.prev? i = some ':'
  slash : ∀ k < j, i ≤ k → t[k]? = some '/'
  ends : t[j]? ≠ some '/'
  two_le : i + 2 ≤ j

instance (t : Text) (i j : Nat) : Decidable (UrlSlashes t i j) :=
  decidable_of_iff (t.prev? i = some ':' ∧ (∀ k < j, i ≤ k → t[k]? = some '/') ∧
      t[j]? ≠ some '/' ∧ i + 2 ≤ j)
    ⟨fun ⟨h₁, h₂, h₃, h₄⟩ => ⟨h₁, h₂, h₃, h₄⟩, fun ⟨h₁, h₂, h₃, h₄⟩ => ⟨h₁, h₂, h₃, h₄⟩⟩

theorem slashes_prefix_iff :
    ['/', '/'] <+: t.after k ↔ t[k]? = some '/' ∧ t[k + 1]? = some '/' := by
  constructor
  · intro h
    exact ⟨Text.getElem?_of_prefix_after (k := 0) h (by decide),
      Text.getElem?_of_prefix_after (k := 1) h (by decide)⟩
  · rintro ⟨hfirst, hsecond⟩
    rw [Text.after_eq_cons hfirst, Text.after_eq_cons hsecond]
    exact ⟨t.after (k + 1 + 1), rfl⟩

/-- Two slashes may begin a comment wherever no colon stands before them. -/
theorem begins_slashes_iff : Begins Settings.default t k ['/', '/'] ↔
    t[k]? = some '/' ∧ t[k + 1]? = some '/' ∧ t.prev? k ≠ some ':' := by
  constructor
  · intro h
    obtain ⟨hfirst, hsecond⟩ := slashes_prefix_iff.1 h.stands
    exact ⟨hfirst, hsecond, fun hcolon => h.not_url ⟨List.prefix_rfl, hcolon⟩⟩
  · rintro ⟨hfirst, hsecond, hcolon⟩
    exact ⟨by decide, by decide, slashes_prefix_iff.2 ⟨hfirst, hsecond⟩, fun h => hcolon h.2⟩

namespace UrlSlashes

variable (h : UrlSlashes t i j)
include h

/-- Behind the first of the slashes and before the last a comment may begin. -/
theorem begins_iff (hik : i ≤ k) (hkj : k < j) :
    Begins Settings.default t k ['/', '/'] ↔ i < k ∧ k + 1 < j := by
  rw [begins_slashes_iff]
  constructor
  · rintro ⟨-, hsecond, hcolon⟩
    have hk : k ≠ i := by
      rintro rfl
      exact hcolon h.colon
    have hj : k + 1 ≠ j := by
      rintro rfl
      exact h.ends hsecond
    omega
  · rintro ⟨hlt, hend⟩
    have hprev : t.prev? (k - 1 + 1) = some '/' := Text.prev?_succ (h.slash (k - 1) (by omega) (by omega))
    rw [Nat.sub_add_cancel (by omega)] at hprev
    refine ⟨h.slash k hkj hik, h.slash (k + 1) hend (by omega), ?_⟩
    rw [hprev]
    decide

theorem startOfLine_le (hn : n < t.lineCount) (hkj : k < j) (hstart : t.startOfLine n ≤ k) :
    t.startOfLine n ≤ i := by
  refine Nat.le_of_not_lt fun hlt => ?_
  have hbreak := Text.nextIs_isLineBreak hn (by omega)
  rw [Text.nextIs, h.slash (t.startOfLine n - 1) (by omega) (by omega)] at hbreak
  exact absurd hbreak (by decide)

/-- Where a slash of the run leads its line, it is the second, with another behind it. -/
theorem eq_of_leads (hquote : '"' ∉ t) (hn : n < t.lineCount)
    (hleads : Leads Settings.default t n k ['/', '/']) (hik : i ≤ k) (hkj : k < j) :
    k = i + 1 ∧ i + 3 ≤ j := by
  obtain ⟨hlt, hend⟩ := (h.begins_iff hik hkj).1 hleads.begins
  have hstart := h.startOfLine_le hn hkj hleads.start_le
  have heq : k = i + 1 := by
    refine Nat.le_antisymm (Nat.le_of_not_lt fun hbehind => ?_) hlt
    -- The second slash is looked at before `k` is, and may begin a comment too.
    have hbegins := (h.begins_iff (k := i + 1) (by omega) (by omega)).2 ⟨by omega, by omega⟩
    refine hleads.first (i + 1) hbehind (by omega) ?_ _ hbegins.mem hbegins
    exact unquoted_of_forall (fun k _ _ hk => hquote (List.mem_of_getElem? hk)) (by omega)
  omega

/-- The second of three slashes leads its line if no marker stands before the run. -/
theorem leads (hquote : '"' ∉ t) (hhash : '#' ∉ t) (hthree : i + 3 ≤ j)
    (hstart : t.startOfLine n ≤ i) (hstop : i < t.lineEnd (t.startOfLine n))
    (hfirst : ∀ k < i, t.startOfLine n ≤ k → ¬Begins Settings.default t k ['/', '/']) :
    Leads Settings.default t n (i + 1) ['/', '/'] := by
  have hbegins := (h.begins_iff (k := i + 1) (by omega) (by omega)).2 ⟨by omega, by omega⟩
  have hunquoted : Unquoted t false (t.startOfLine n) (i + 1) :=
    unquoted_of_forall (fun k _ _ hk => hquote (List.mem_of_getElem? hk)) (by omega)
  have hon : i + 1 < t.lineEnd (t.startOfLine n) := by
    refine Nat.lt_of_le_of_ne hstop fun heq => ?_
    have hend := Text.not_nextIs_lineEnd (t := t) (Text.startOfLine_le n)
    rw [← heq, Text.nextIs, h.slash (i + 1) (by omega) (by omega)] at hend
    exact absurd hend (by decide)
  refine ⟨by omega, hon, hunquoted, hbegins, fun m _ hm => ?_, fun k hk hle _ m hm hmk => ?_⟩
  · exact Nat.le_of_eq (by rw [hm.unique hbegins])
  · rcases mem_default_iff.1 hm with rfl | rfl
    · rcases Nat.lt_or_eq_of_le (Nat.le_of_lt_succ hk) with hlt | rfl
      · exact hfirst k hlt hle hmk
      · exact absurd ((h.begins_iff (Nat.le_refl k) (by omega)).1 hmk).1 (Nat.lt_irrefl k)
    · exact hhash (List.mem_of_getElem? (Text.getElem?_of_prefix_after (k := 0) hmk.stands (by decide)))

end UrlSlashes

/-! ## Texts without other markers -/

section

variable (hopen : ¬['/', '*'] <:+: t)
include hopen

theorem not_mem_blocksFrom {o : Nat × Nat} : o ∉ blocksFrom ⟨['/', '*'], ['*', '/']⟩ 0 0 t := by
  intro ho
  have ho' : o ∈ blocksFrom ⟨['/', '*'], ['*', '/']⟩ 0 0 (t.after 0) := ho
  have hstands := stands_of_mem_blocksFrom ho'
  exact hopen (hstands.isInfix.trans (List.drop_suffix o.1 t).isInfix)

theorem not_inBlock : ¬InBlock Settings.default t k := by
  rintro ⟨m, hm, -, o, ho, -⟩
  cases List.mem_singleton.1 hm
  exact not_mem_blocksFrom hopen ho

/-- Where nothing opens a block comment and no `#` stands, comments begin with two slashes. -/
theorem exists_leads_slashes (hhash : '#' ∉ t) (hcs : all t Settings.default = .ok cs) (hc : c ∈ cs) :
    ∃ n < t.lineCount, ∃ k, Leads Settings.default t n k ['/', '/'] ∧ LineAt t k ['/', '/'] c := by
  rcases blockAt_or_leads hcs hc with ⟨k, j, hblock⟩ | ⟨n, hn, k, marker, hleads, hline⟩
  · exact absurd hblock.mem (not_mem_blocksFrom hopen)
  · rcases mem_default_iff.1 hleads.begins.mem with rfl | rfl
    · exact ⟨n, hn, k, hleads, hline⟩
    · have hstands := hleads.begins.stands
      exact absurd (List.mem_of_getElem? (Text.getElem?_of_prefix_after (k := 0) hstands (by decide))) hhash

end

end VoiceEdit.Comment
