import Mathlib.Data.List.Infix
import VoiceEdit.Proofs.Code.Marked

/-!
# Comments that overlap

Where comments are marked as they are where nothing is configured, each comment has a place of its
own, which is its marker's, and the order of the spans is the order of these places. No marker
stands in what lies between the start of a span and the body. Block comments lie apart, and no line
comment begins in one of them; but a block comment may open in a line comment, and then go on
behind the end of its line.

Results:

* `blockAt_or_leads`, `exists_of_leads`: where the comments of a text are.
* `eq_of_start_eq`, `eq_of_between`: a comment is known by where its span starts, and no other lies
  before its body.
* `lineAt_of_body_le`, `straddles_of_lt`: which comments overlap.
* `around?_of_touches`, `overlap_of_around?`: the comment around a place, among those that overlap.
* `of_previous?_body`: the last comment before the body of another.
-/
namespace VoiceEdit.Comment

open Text (Trims)

variable {settings : Settings} {t marker marker' : Text} {c d e : Comment} {cs : List Comment}
  {s : Span} {i j k stop stop' j' : Nat}

/-! ## Where block comments are read -/

/-- Where a block comment is read, its opening marker stands. -/
theorem stands_of_mem_blocksFrom {m : BlockMarker} {skip pos : Nat} {o : Nat × Nat}
    (h : o ∈ blocksFrom m skip pos (t.after pos)) : m.start <+: t.after o.1 := by
  generalize hcs : t.after pos = cs at h
  induction cs generalizing skip pos with
  | nil => cases h
  | cons c rest ih =>
    obtain ⟨-, hrest⟩ := Text.of_after_eq_cons hcs
    cases skip with
    | succ skip => exact ih hrest h
    | zero =>
      rw [blocksFrom] at h
      split at h
      · rename_i hm
        split at h
        · cases h
        · rcases List.mem_cons.1 h with rfl | hmem
          · rw [hcs]
            exact List.isPrefixOf_iff_prefix.1 hm
          · exact ih hrest hmem
      · exact ih hrest h

/-- Block comments of one kind follow each other. -/
theorem pairwise_blocksFrom (m : BlockMarker) (skip pos : Nat) (cs : List Char) :
    (blocksFrom m skip pos cs).Pairwise fun a b => a.2 + m.stop.length ≤ b.1 := by
  fun_induction blocksFrom m skip pos cs with
  | case1 | case3 => exact .nil
  | case2 _ _ _ _ ih | case5 _ _ _ _ ih => exact ih
  | case4 _ _ _ _ close _ ih =>
    refine .cons (fun o ho => ?_) ih
    have := (mem_blocksFrom_bounds ho).1
    omega

/-! ## Where a comment is

From here on comments are marked as they are where nothing is configured. -/

/-- What begins a comment, of either kind. -/
def openers : List Text := [['/', '*'], ['/', '/'], ['#']]

/-- The comment has its marker at `k`, and what it says behind that, up to `stop`. -/
structure MarkedAt (t : Text) (k : Nat) (marker : Text) (stop : Nat) (c : Comment) : Prop where
  mem : marker ∈ openers
  stands : marker <+: t.after k
  start_eq : c.span.start = k - t.runBefore isBlank k
  body : Trims t (k + marker.length) stop c.body.start c.body.stop
  stop_le : stop ≤ c.span.stop
  le_length : c.span.stop ≤ t.length

/-- The block comment whose markers stand at `k` and at `j`. -/
structure BlockAt (t : Text) (k j : Nat) (c : Comment) : Prop where
  mem : (k, j) ∈ blocksFrom ⟨['/', '*'], ['*', '/']⟩ 0 0 t
  parts : ofParts t k (k + 2) j (j + 2) = .ok c

/-- The line comment whose marker stands at `k`, outside block comments. -/
structure LineAt (t : Text) (k : Nat) (marker : Text) (c : Comment) : Prop where
  begins : Begins Settings.default t k marker
  outside : ¬InBlock Settings.default t k
  parts : ofParts t k (k + marker.length) (t.lineEnd k) (t.lineEnd k) = .ok c

theorem BlockAt.stop_eq (h : BlockAt t k j c) : c.span.stop = j + 2 := (of_ofParts h.parts).2.2

theorem LineAt.stop_eq (h : LineAt t k marker c) : c.span.stop = t.lineEnd k :=
  (of_ofParts h.parts).2.2

theorem BlockAt.markedAt (h : BlockAt t k j c) : MarkedAt t k ['/', '*'] j c := by
  have hlen : j + 2 ≤ 0 + t.length := (mem_blocksFrom_bounds h.mem).2.2
  obtain ⟨-, hstart, hstop⟩ := of_ofParts h.parts
  have hmem : (k, j) ∈ blocksFrom ⟨['/', '*'], ['*', '/']⟩ 0 0 (t.after 0) := h.mem
  exact ⟨by decide, stands_of_mem_blocksFrom hmem, hstart, trims_of_ofParts h.parts (by omega),
    by omega, by omega⟩

theorem LineAt.markedAt (h : LineAt t k marker c) : MarkedAt t k marker (t.lineEnd k) c := by
  have hlen := t.lineEnd_le_length k
  obtain ⟨-, hstart, hstop⟩ := of_ofParts h.parts
  refine ⟨?_, h.begins.stands, hstart, trims_of_ofParts h.parts hlen, Nat.le_of_eq hstop.symm, by omega⟩
  rcases mem_default_iff.1 h.begins.mem with rfl | rfl <;> decide

/-- Every comment has its place, which for a line comment is the marker of a line. -/
theorem blockAt_or_leads (hcs : all t Settings.default = .ok cs) (hc : c ∈ cs) :
    (∃ k j, BlockAt t k j c) ∨ ∃ n < t.lineCount, ∃ k marker,
      Leads Settings.default t n k marker ∧ LineAt t k marker c := by
  obtain ⟨blocks, hblocks, hmem, -, -⟩ := exists_all hcs
  rcases (hmem c).1 hc with hblock | ⟨n, hn, hline⟩
  · obtain ⟨m, hm, -, o, ho, hparts⟩ := exists_of_mem_blocks hblocks hblock
    cases List.mem_singleton.1 hm
    exact .inl ⟨o.1, o.2, ho, hparts⟩
  · obtain ⟨k, marker, hleads, hany, hparts⟩ := exists_of_lineComment? hline
    refine .inr ⟨n, hn, k, marker, hleads, hleads.begins, fun hin => ?_, by rw [hleads.lineEnd_eq]; exact hparts⟩
    rw [(any_blocks_iff hblocks hleads.begins.not_blank).2 hin] at hany
    cases hany

theorem blockAt_or_lineAt (hcs : all t Settings.default = .ok cs) (hc : c ∈ cs) :
    (∃ k j, BlockAt t k j c) ∨ ∃ k marker, LineAt t k marker c := by
  refine (blockAt_or_leads hcs hc).imp_right ?_
  rintro ⟨n, -, k, marker, -, hline⟩
  exact ⟨k, marker, hline⟩

/-- The comment that begins at the marker of a line, outside of block comments, is one of all. -/
theorem exists_of_leads (hcs : all t Settings.default = .ok cs) {n : Nat} (hn : n < t.lineCount)
    (h : Leads Settings.default t n k marker) (hout : ¬InBlock Settings.default t k) :
    ∃ c ∈ cs, LineAt t k marker c := by
  obtain ⟨blocks, hblocks, hmem, hlines, -⟩ := exists_all hcs
  have hcomment : lineComment? t Settings.default.markersByLength blocks n = _ := lineComment?_of_leads h
  rw [if_neg (mt (any_blocks_iff hblocks h.begins.not_blank).1 hout)] at hcomment
  obtain ⟨o, ho⟩ := hlines n hn
  obtain ⟨c, hparts, -⟩ := map_eq_ok.1 (hcomment.symm.trans ho)
  rw [hparts] at hcomment
  exact ⟨c, (hmem c).2 (.inr ⟨n, hn, hcomment⟩), h.begins, hout, by rw [h.lineEnd_eq]; exact hparts⟩

/-- No character of a marker is white space. -/
theorem MarkedAt.not_white (h : MarkedAt t k marker stop c) (hi : i < marker.length) :
    t.nextIs Unicode.isWhitespace (k + i) = false := by
  have hsolid : ∀ m ∈ openers, m.all (fun c => !Unicode.isWhitespace c) = true := by decide
  have hchar := Text.getElem?_of_prefix_after h.stands hi
  have hmarker := List.all_eq_true.1 (hsolid marker h.mem) _ (List.getElem_mem hi)
  rwa [Text.nextIs, hchar, Option.any_some, ← Bool.not_eq_true']

namespace MarkedAt

theorem length_pos (h : MarkedAt t k marker stop c) : 0 < marker.length := by
  have hsome : ∀ m ∈ openers, 0 < m.length := by decide
  exact hsome marker h.mem

theorem not_blank (h : MarkedAt t k marker stop c) : t.nextIs isBlank k = false := by
  refine eq_false_of_ne_true fun hblank => ?_
  have hwhite := Text.nextIs_mono (fun _ => isWhitespace_of_isBlank) hblank
  rw [← Nat.add_zero k, h.not_white h.length_pos] at hwhite
  cases hwhite

/-- The parts of a comment in their order: the blanks, the marker, the body. -/
theorem bounds (h : MarkedAt t k marker stop c) : c.span.start ≤ k ∧ k < c.body.start ∧
    k + marker.length ≤ c.body.start ∧ c.body.start ≤ c.body.stop ∧ c.body.stop ≤ c.span.stop := by
  have hpos := h.length_pos
  have hstart := h.start_eq
  have hfront := h.body.start_le
  have hbody := h.body.first_le_last
  have hback := h.body.last_le
  have hstop := h.stop_le
  omega

theorem le_text (h : MarkedAt t k marker stop c) : k ≤ t.length := by
  have hin := h.bounds
  have hlen := h.le_length
  omega

/-- The markers stand in the order in which the spans start. -/
theorem le_of_start_le (h : MarkedAt t k marker stop c) (h' : MarkedAt t i marker' stop' d)
    (hle : d.span.start ≤ c.span.start) : i ≤ k := by
  refine le_of_sub_runBefore_le h'.le_text h.not_blank ?_
  rw [← h'.start_eq]
  exact Nat.le_trans hle h.bounds.1

theorem lt_of_start_lt (h : MarkedAt t k marker stop c) (h' : MarkedAt t i marker' stop' d)
    (hlt : d.span.start < c.span.start) : i < k := by
  refine Nat.lt_of_le_of_ne (h.le_of_start_le h' (Nat.le_of_lt hlt)) ?_
  rintro rfl
  rw [h.start_eq, h'.start_eq] at hlt
  exact Nat.lt_irrefl _ hlt

/-- No marker stands in another, except for that one. -/
theorem eq_of_le (h : MarkedAt t k marker stop c) (h' : MarkedAt t i marker' stop' d) (hle : k ≤ i)
    (hend : i + marker'.length ≤ k + marker.length) : i = k ∧ marker' = marker := by
  have hinfix : ∀ m ∈ openers, ∀ m' ∈ openers, ∀ n ≤ m.length, m' <+: m.drop n → n = 0 ∧ m' = m := by
    decide
  obtain ⟨n, rfl⟩ := Nat.exists_eq_add_of_le hle
  have hstands := h.stands.drop n
  rw [Text.drop_after] at hstands
  have hinner : marker' <+: marker.drop n := by
    refine List.prefix_of_prefix_length_le h'.stands hstands ?_
    rw [List.length_drop]
    omega
  obtain ⟨rfl, heq⟩ := hinfix marker h.mem marker' h'.mem n (by omega) hinner
  exact ⟨rfl, heq⟩

end MarkedAt

theorem exists_markedAt (hcs : all t Settings.default = .ok cs) (hc : c ∈ cs) :
    ∃ k marker stop, MarkedAt t k marker stop c := by
  rcases blockAt_or_lineAt hcs hc with ⟨k, j, hblock⟩ | ⟨k, marker, hline⟩
  · exact ⟨_, _, _, hblock.markedAt⟩
  · exact ⟨_, _, _, hline.markedAt⟩

/-- Block comments are the same, or one ends where the other opens or before. -/
theorem BlockAt.apart (h : BlockAt t k j c) (h' : BlockAt t i j' d) :
    (i = k ∧ j' = j) ∨ d.span.stop ≤ k ∨ c.span.stop ≤ i := by
  have hpairwise := pairwise_blocksFrom ⟨['/', '*'], ['*', '/']⟩ 0 0 t
  have hapart := List.Pairwise.forall_of_forall_of_flip
    (R := fun a b : Nat × Nat => a = b ∨ a.2 + 2 ≤ b.1 ∨ b.2 + 2 ≤ a.1) (fun a _ => .inl rfl)
    (hpairwise.imp fun hab => .inr (.inl hab)) (hpairwise.imp fun hab => .inr (.inr hab)) h'.mem h.mem
  rw [h.stop_eq, h'.stop_eq]
  rcases hapart with heq | hapart
  · cases heq
    exact .inl ⟨rfl, rfl⟩
  · exact .inr hapart

theorem BlockAt.unique (h : BlockAt t k j c) (h' : BlockAt t k j' d) : d = c := by
  have hin := h.markedAt.bounds
  have hin' := h'.markedAt.bounds
  have hclosed : j' = j := by
    rcases h.apart h' with ⟨-, heq⟩ | hbefore | hbefore <;> omega
  subst hclosed
  exact Except.ok.inj (h'.parts.symm.trans h.parts)

theorem LineAt.unique (h : LineAt t k marker c) (h' : LineAt t k marker' d) : d = c := by
  obtain rfl := h.begins.unique h'.begins
  exact Except.ok.inj (h'.parts.symm.trans h.parts)

/-- From its marker on, what lies in a block comment begins no line comment. -/
theorem LineAt.not_in_block (h : LineAt t k marker c) (h' : BlockAt t i j d) (hle : i ≤ k) :
    d.span.stop ≤ k := by
  refine Nat.le_of_not_lt fun hlt => h.outside ?_
  exact ⟨_, List.mem_singleton_self _, by decide, (i, j), h'.mem, hle, h'.stop_eq ▸ hlt⟩

/-! ## Comments and their order -/

section

variable (hcs : all t Settings.default = .ok cs) (hc : c ∈ cs) (hd : d ∈ cs)
include hcs hc hd

/-- A comment is known by where its span starts. -/
theorem eq_of_start_eq (h : d.span.start = c.span.start) : d = c := by
  have same {k i stop stop' : Nat} {marker marker' : Text} (hk : MarkedAt t k marker stop c)
      (hi : MarkedAt t i marker' stop' d) : i = k :=
    Nat.le_antisymm (hk.le_of_start_le hi (Nat.le_of_eq h)) (hi.le_of_start_le hk (Nat.le_of_eq h.symm))
  rcases blockAt_or_lineAt hcs hc with ⟨k, j, hblock⟩ | ⟨k, marker, hline⟩
  · have hin := hblock.markedAt.bounds
    rcases blockAt_or_lineAt hcs hd with ⟨i, j', hblock'⟩ | ⟨i, marker', hline'⟩
    · obtain rfl := same hblock.markedAt hblock'.markedAt
      exact hblock.unique hblock'
    · obtain rfl := same hblock.markedAt hline'.markedAt
      have hout := hline'.not_in_block hblock (Nat.le_refl _)
      omega
  · rcases blockAt_or_lineAt hcs hd with ⟨i, j', hblock'⟩ | ⟨i, marker', hline'⟩
    · obtain rfl := same hline.markedAt hblock'.markedAt
      have hin := hblock'.markedAt.bounds
      have hout := hline.not_in_block hblock' (Nat.le_refl _)
      omega
    · obtain rfl := same hline.markedAt hline'.markedAt
      exact hline.unique hline'

/-- Between where a span starts and the body no other comment lies. -/
theorem eq_of_between (hstart : c.span.start ≤ d.span.start) (hstop : d.span.stop ≤ c.body.start) :
    d = c := by
  obtain ⟨k, marker, stop, hk⟩ := exists_markedAt hcs hc
  obtain ⟨i, marker', stop', hi⟩ := exists_markedAt hcs hd
  have hle := hi.le_of_start_le hk hstart
  have hend : i + marker'.length ≤ k + marker.length := by
    refine Nat.le_of_not_lt fun hlt => ?_
    -- The last character of the marker would be white space behind the marker of `c`.
    have hin := hi.bounds
    have hpos := hi.length_pos
    have hwhite := hk.body.front (i + (marker'.length - 1)) (by omega) (by omega)
    rw [hi.not_white (by omega)] at hwhite
    cases hwhite
  obtain ⟨rfl, -⟩ := hk.eq_of_le hi hle hend
  exact eq_of_start_eq hcs hc hd (by rw [hi.start_eq, hk.start_eq])

/-- What starts before another comment, and ends where its body begins or behind that, is a line
comment. -/
theorem lineAt_of_body_le (hstart : d.span.start < c.span.start) (hbody : c.body.start ≤ d.span.stop) :
    ∃ i marker, LineAt t i marker d := by
  refine (blockAt_or_lineAt hcs hd).resolve_left ?_
  rintro ⟨i, j, hblock⟩
  rcases blockAt_or_lineAt hcs hc with ⟨k, j', hblock'⟩ | ⟨k, marker, hline⟩
  · have hin := hblock'.markedAt.bounds
    have hlt := hblock'.markedAt.lt_of_start_lt hblock.markedAt hstart
    rcases hblock'.apart hblock with ⟨heq, -⟩ | hbefore | hbefore <;> omega
  · have hin := hline.markedAt.bounds
    have hlt := hline.markedAt.lt_of_start_lt hblock.markedAt hstart
    have hout := hline.not_in_block hblock (Nat.le_of_lt hlt)
    omega

end

/-- No line comment goes on across a newline. -/
theorem LineAt.holds (h : LineAt t k marker c) (hstart : c.span.start ≤ i) (hstop : i < c.span.stop) :
    t.nextIs (· != '\n') i = true := by
  have hk := h.markedAt.le_text
  by_cases hi : i < k
  · have hblank := Text.nextIs_of_sub_runBefore_le hk (by rwa [← h.markedAt.start_eq]) hi
    refine Text.nextIs_mono (fun c hc => ?_) hblank
    simp only [isBlank, Bool.or_eq_true, beq_iff_eq] at hc
    rcases hc with rfl | rfl <;> decide
  · have := t.lineStart_le k
    exact Text.nextIs_of_mem_line hk (by omega) (by rwa [← h.stop_eq])

/-- The block comment `c` opens in the line comment `d`, in which its body begins too, and goes on
behind the end of it. -/
structure Straddles (t : Text) (c d : Comment) : Prop where
  block : ∃ k j, BlockAt t k j c
  line : ∃ i marker, LineAt t i marker d
  start_lt : d.span.start < c.span.start
  body_le : c.body.start ≤ d.span.stop
  stop_lt : d.span.stop < c.span.stop

/-- Nothing but white space stands behind the marker of the line comment `c`. -/
def Bare (t : Text) (c : Comment) : Prop :=
  ∃ k marker, LineAt t k marker c ∧
    ∀ i < c.span.stop, k + marker.length ≤ i → t.nextIs Unicode.isWhitespace i = true

section

variable (hcs : all t Settings.default = .ok cs) (hc : c ∈ cs)
include hcs hc

/-- What starts before another comment, reaches to its body and ends before it does. -/
theorem straddles_of_lt (hd : d ∈ cs) (hstart : d.span.start < c.span.start)
    (hbody : c.body.start ≤ d.span.stop) (hstop : d.span.stop < c.span.stop) : c.Straddles t d := by
  obtain ⟨i, marker, hline⟩ := lineAt_of_body_le hcs hc hd hstart hbody
  refine ⟨(blockAt_or_lineAt hcs hc).resolve_right ?_, ⟨i, marker, hline⟩, hstart, hbody, hstop⟩
  rintro ⟨k, marker', hline'⟩
  -- Two line comments on one line end where it does.
  have hle := hline'.markedAt.le_of_start_le hline.markedAt (Nat.le_of_lt hstart)
  have hin := hline'.markedAt.bounds
  have hend := Text.lineEnd_of_mem (j := k) hline.markedAt.le_text
    (Nat.le_trans (t.lineStart_le i) hle) (by rw [← hline.stop_eq]; omega)
  rw [hline.stop_eq, hline'.stop_eq, hend] at hstop
  exact Nat.lt_irrefl _ hstop

/-- The bare comments are those with an empty body at the end of their span. -/
theorem bare_iff : c.Bare t ↔ c.span.stop ≤ c.body.start := by
  constructor
  · rintro ⟨k, marker, hline, hblank⟩
    have hbody := hline.markedAt.body
    rw [← hline.stop_eq] at hbody
    refine Nat.le_of_not_lt fun hlt => ?_
    have hwhite := hblank _ hlt hbody.start_le
    rw [hbody.first_content hlt] at hwhite
    cases hwhite
  · intro hle
    rcases blockAt_or_lineAt hcs hc with ⟨k, j, hblock⟩ | ⟨k, marker, hline⟩
    · have hfirst := hblock.markedAt.body.first_le_last
      have hlast := hblock.markedAt.body.last_le
      have hstop := hblock.stop_eq
      omega
    · exact ⟨k, marker, hline, fun i hi hki => hline.markedAt.body.front i hki (by omega)⟩

end

/-- From the comment there is no way back: it is bare, or no comment ends before its body. -/
def Rests (t : Text) (cs : List Comment) (c : Comment) : Prop :=
  c.Bare t ∨ ∀ d ∈ cs, c.body.start < d.span.stop

theorem touches_body (hcs : all t Settings.default = .ok cs) (hc : c ∈ cs) :
    c.span.touches c.body.start = true := by
  obtain ⟨k, marker, stop, hk⟩ := exists_markedAt hcs hc
  have hin := hk.bounds
  exact Span.touches_iff.2 ⟨by omega, by omega⟩

/-! ## Around a place -/

/-- From a place that a comment touches a comment is found that touches it, the first of them. -/
theorem around?_of_touches (hcs : all t settings = .ok cs) (hc : c ∈ cs)
    (h : c.span.touches s.start = true) : ∃ e ∈ cs, around? t settings s = .ok (some e) ∧
      e.span.touches s.start = true ∧ e.span.start ≤ c.span.start := by
  obtain ⟨-, -, -, -, hsorted⟩ := exists_all hcs
  cases hfind : cs.find? (·.span.touches s.start) with
  | none => exact absurd h (List.find?_eq_none.1 hfind c hc)
  | some e =>
    have haround : around? t settings s = .ok (some e) :=
      bind_eq_ok.2 ⟨cs, hcs, congrArg Except.ok (by rw [hfind]; rfl)⟩
    have htouches := List.find?_some hfind
    refine ⟨e, List.mem_of_find?_eq_some hfind, haround, htouches, ?_⟩
    rcases eq_or_of_find? hsorted hfind hc h with rfl | hle
    · exact Nat.le_refl _
    · exact hle

/-- What is found although another comment starts before it and reaches to its body touches the
place, and the other ends before that. -/
theorem overlap_of_around? (hs : s.start ≤ t.length) (hcs : all t Settings.default = .ok cs)
    (h : around? t Settings.default s = .ok (some c)) (hd : d ∈ cs)
    (hstart : d.span.start < c.span.start) (hbody : c.body.start ≤ d.span.stop) :
    d.span.stop < s.start ∧ s.start ≤ c.span.stop := by
  obtain ⟨-, -, -, -, hsorted⟩ := exists_all hcs
  obtain ⟨cs', hcs', h⟩ := bind_eq_ok.1 h
  obtain rfl : cs' = cs := Except.ok.inj (hcs'.symm.trans hcs)
  have before {p : Comment → Bool} (hfind : cs'.find? p = some c) (hp : p d = true) : False := by
    rcases eq_or_of_find? hsorted hfind hd hp with rfl | hle
    · exact Nat.lt_irrefl _ hstart
    · exact Nat.not_le_of_lt hstart hle
  rcases Option.or_eq_some_iff.1 (Except.ok.inj h) with hfind | ⟨-, hfind⟩
  · have htouches := List.find?_some hfind
    rw [Span.touches_iff] at htouches
    refine ⟨Nat.lt_of_not_le fun hle => before hfind ?_, htouches.2⟩
    exact Span.touches_iff.2 ⟨by omega, hle⟩
  · -- The other would be a line comment with a newline in it: where the line of the place starts.
    exfalso
    have hc := List.mem_of_find?_eq_some hfind
    have hline := List.find?_some hfind
    simp only [Bool.and_eq_true, decide_eq_true_eq] at hline
    have hlt : d.span.start < t.lineStart s.start := by
      refine Nat.lt_of_not_le fun hle => before hfind ?_
      rw [decide_eq_true hle, decide_eq_true (by omega)]
      rfl
    obtain ⟨i, marker, hat⟩ := lineAt_of_body_le hcs hc hd hstart hbody
    obtain ⟨k, marker', stop, hk⟩ := exists_markedAt hcs hc
    have hin := hk.bounds
    have hbreak := hat.holds (i := t.lineStart s.start - 1) (by omega) (by omega)
    have hnone := Text.not_prevIs_lineStart hs
    rw [Text.prevIs_iff.2 ⟨by omega, hbreak⟩] at hnone
    cases hnone

/-! ## Before a comment -/

theorem previous?_eq (hcs : all t settings = .ok cs) : previous? t settings s =
    .ok (cs.reverse.find? fun c => decide (c.span.stop ≤ s.start)) := bind_eq_ok.2 ⟨cs, hcs, rfl⟩

theorem of_previous?_eq_none (hcs : all t settings = .ok cs) (h : previous? t settings s = .ok none)
    (hd : d ∈ cs) : s.start < d.span.stop := by
  rw [previous?_eq hcs] at h
  have hnot := List.find?_eq_none.1 (Except.ok.inj h) d (List.mem_reverse.2 hd)
  exact Nat.lt_of_not_le fun hle => hnot (decide_eq_true hle)

/-- From a comment the search goes back to one that starts before it, and from a bare comment to
that comment. -/
theorem of_previous?_body (hcs : all t Settings.default = .ok cs) (hc : c ∈ cs)
    (h : previous? t Settings.default c.body = .ok (some e)) :
    e ∈ cs ∧ (¬c.Bare t → e.span.start < c.span.start) ∧ (c.Bare t → e = c) := by
  obtain ⟨-, -, -, -, hsorted⟩ := exists_all hcs
  rw [previous?_eq hcs] at h
  have hfind := Except.ok.inj h
  have he := List.mem_reverse.1 (List.mem_of_find?_eq_some hfind)
  have hbefore := List.find?_some hfind
  rw [decide_eq_true_eq] at hbefore
  rw [bare_iff hcs hc]
  refine ⟨he, fun hlt => Nat.lt_of_not_le fun hle => ?_, fun hbare => ?_⟩
  · obtain rfl := eq_of_between hcs hc he hle hbefore
    exact hlt hbefore
  · rcases eq_or_of_find? (List.pairwise_reverse.2 hsorted) hfind (List.mem_reverse.2 hc)
      (decide_eq_true hbare) with heq | hle
    · exact heq.symm
    · exact eq_of_between hcs hc he hle hbefore

end VoiceEdit.Comment
