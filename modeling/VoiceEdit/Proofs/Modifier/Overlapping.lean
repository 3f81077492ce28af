import VoiceEdit.Proofs.Code.Overlapping
import VoiceEdit.Proofs.Modifier.Comments
import VoiceEdit.Proofs.Modifier.Rest

/-!
# From one comment to another

The comment that is answered is found again from its body, unless it is a block comment that opens
in a line comment and goes on behind that: the cursor stood behind the line comment, and the body
of what was found does not. Going back leads from each comment to one that starts before it, except
that a comment with nothing behind its marker ends where its own body is, so that it is found again
and again.

Results:

* `apply_comment_again`: the comment around a comment.
* `step_comment_back`, `steps_comment_back`: one step back, and any number.
* `apply_comments_back`: the comment before a comment, and where going back ends.
-/
namespace VoiceEdit

variable {m : Modifier} {t : Text} {c d e : Comment} {cs : List Comment} {f target found : Target}

namespace Comment

/-- No two comments are selected by the same target. -/
theorem eq_of_target (hc : c.target = .ok f) (hd : d.target = .ok f) : d = c := by
  obtain ⟨hspan, hremoved⟩ := of_target hc
  obtain ⟨hspan', hremoved'⟩ := of_target hd
  cases c
  cases d
  rw [Comment.mk.injEq]
  exact ⟨hspan'.symm.trans hspan, hremoved'.symm.trans hremoved⟩

/-- Every comment can be selected. -/
theorem exists_target (hcs : all t Settings.default = .ok cs) (hc : c ∈ cs) :
    ∃ f, c.target = .ok f ∧ f.Within t := by
  obtain ⟨k, marker, stop, hk⟩ := exists_markedAt hcs hc
  have hin := hk.bounds
  exact yields_withRemoval (by omega) (by omega) hk.le_length

theorem start_lt_length (hcs : all t Settings.default = .ok cs) (hc : c ∈ cs) :
    c.span.start < t.length := by
  obtain ⟨k, marker, stop, hk⟩ := exists_markedAt hcs hc
  have hin := hk.bounds
  have hlen := hk.le_length
  omega

theorem ne_nil_of_mem (hcs : all t Settings.default = .ok cs) (hc : c ∈ cs) : t ≠ [] :=
  List.ne_nil_of_length_pos (Nat.zero_lt_of_lt (start_lt_length hcs hc))

end Comment

namespace Modifier

open Comment (LineAt)

/-! ## Around a comment -/

section

variable (lookup : SpellingLookup) (hcs : Comment.all t Settings.default = .ok cs)
include hcs

/-- A comment that is found around a target is answered. -/
theorem apply_of_around? (hkind : m.kind = .comment .here) (hc : c ∈ cs) (ht : target.Within t)
    (h : Comment.around? t Settings.default target.span = .ok (some c)) :
    ∃ f, c.target = .ok f ∧ m.once.apply ⟨Settings.default, lookup⟩ t target = .ok f := by
  obtain ⟨f, hf, hwithin⟩ := Comment.exists_target hcs hc
  have hfind : m.find ⟨Settings.default, lookup⟩ t target.span = .ok (some f) := by
    rw [find_comment hkind]
    exact bind_eq_ok.2 ⟨some c, h, targetOf_some hf⟩
  refine ⟨f, hf, apply_once_eq_ok_iff.2 ⟨ht, ?_⟩⟩
  rw [if_neg (Comment.ne_nil_of_mem hcs hc)]
  exact ⟨step_eq_ok_iff.2 (.inl hfind), hwithin⟩

/-- From the body of a comment a comment is answered, the first that touches the start of it. -/
theorem apply_of_touches (hkind : m.kind = .comment .here) (hc : c ∈ cs) (hfound : c.target = .ok found)
    (hd : d ∈ cs) (h : d.span.touches c.body.start = true) :
    ∃ e ∈ cs, e.span.start ≤ d.span.start ∧ c.body.start ≤ e.span.stop ∧
      ∃ again, e.target = .ok again ∧ m.once.apply ⟨Settings.default, lookup⟩ t found = .ok again := by
  obtain ⟨f, hf, hwithin⟩ := Comment.exists_target hcs hc
  obtain rfl : f = found := Except.ok.inj (hf.symm.trans hfound)
  obtain ⟨hspan, -⟩ := Comment.of_target hfound
  rw [← hspan] at h ⊢
  obtain ⟨e, he, haround, htouches, hle⟩ := Comment.around?_of_touches hcs hd h
  exact ⟨e, he, hle, (Span.touches_iff.1 htouches).2, apply_of_around? lookup hcs hkind he hwithin haround⟩

/-- What the modifier answers, if it is a comment, is the comment around its target. -/
theorem around?_of_apply (hkind : m.kind = .comment .here) (hc : c ∈ cs) (hfound : c.target = .ok found)
    (h : m.once.apply ⟨Settings.default, lookup⟩ t target = .ok found) :
    Comment.around? t Settings.default target.span = .ok (some c) := by
  have hfind : m.once.find ⟨Settings.default, lookup⟩ t target.span = _ := find_comment hkind _
  rcases find_of_apply (m := m.once) rfl h with hsome | ⟨hnone, rfl⟩
  · obtain ⟨o, ho, hsome⟩ := bind_eq_ok.1 (hfind.symm.trans hsome)
    obtain ⟨c', rfl, hc'⟩ := exists_of_targetOf hsome
    rw [ho, Comment.eq_of_target hfound hc']
  · -- The target is the comment itself, around which something is found.
    obtain ⟨hspan, -⟩ := Comment.of_target hfound
    obtain ⟨e, -, haround, -⟩ := Comment.around?_of_touches (s := c.body) hcs hc (Comment.touches_body hcs hc)
    rcases hnone with hempty | hnone
    · exact absurd hempty (Comment.ne_nil_of_mem hcs hc)
    · obtain ⟨o, ho, hnone⟩ := bind_eq_ok.1 (hfind.symm.trans hnone)
      obtain rfl := eq_none_of_targetOf hnone
      rw [hspan] at ho
      cases ho.symm.trans haround

/-- **A comment found again.** The modifier for comments, applied to the comment that it has
answered, answers the same comment, its body and its span both, unless that is a block comment that
straddles a line comment: one that opens in it, has its body begin in it and goes on behind it. Then
it answers such a line comment, which ends before the place from which the block comment was found. -/
theorem apply_comment_again (hkind : m.kind = .comment .here) (hc : c ∈ cs)
    (hfound : c.target = .ok found)
    (h : m.once.apply ⟨Settings.default, lookup⟩ t target = .ok found) :
    ((∀ d ∈ cs, ¬c.Straddles t d) → m.once.apply ⟨Settings.default, lookup⟩ t found = .ok found) ∧
    ∀ d ∈ cs, c.Straddles t d → ∃ e ∈ cs, c.Straddles t e ∧ e.span.stop < target.span.start ∧
      ∃ again, e.target = .ok again ∧
        m.once.apply ⟨Settings.default, lookup⟩ t found = .ok again := by
  have ht := ((apply_eq_ok_iff Nat.one_ne_zero).1 h).1.span_stop_le
  have haround := around?_of_apply lookup hcs hkind hc hfound h
  have straddles (e : Comment) (he : e ∈ cs) (hlt : e.span.start < c.span.start)
      (hbody : c.body.start ≤ e.span.stop) : c.Straddles t e ∧ e.span.stop < target.span.start := by
    have hs := Nat.le_trans target.span.start_le_stop ht
    obtain ⟨hbefore, hbehind⟩ := Comment.overlap_of_around? hs hcs haround he hlt hbody
    exact ⟨Comment.straddles_of_lt hcs hc he hlt hbody (Nat.lt_of_lt_of_le hbefore hbehind), hbefore⟩
  refine ⟨fun hnone => ?_, fun d hd hd' => ?_⟩
  · obtain ⟨e, he, hle, hbody, again, hagain, happly⟩ :=
      apply_of_touches lookup hcs hkind hc hfound hc (Comment.touches_body hcs hc)
    have hstart : e.span.start = c.span.start := by
      refine Nat.le_antisymm hle (Nat.le_of_not_lt fun hlt => ?_)
      exact hnone e he (straddles e he hlt hbody).1
    rw [Comment.eq_of_start_eq hcs hc he hstart, hfound] at hagain
    cases hagain
    exact happly
  · have htouches := Comment.touches_body hcs hc
    rw [Span.touches_iff] at htouches
    have hlt := hd'.start_lt
    obtain ⟨e, he, hle, hbody, again⟩ := apply_of_touches lookup hcs hkind hc hfound hd
      (Span.touches_iff.2 ⟨by omega, hd'.body_le⟩)
    obtain ⟨hstraddles, hbefore⟩ := straddles e he (by omega) hbody
    exact ⟨e, he, hstraddles, hbefore, again⟩

end

/-- The line comment behind a block comment, from its end. -/
theorem apply_comment_again_line :
    let m : Modifier := { kind := .comment .here }
    let t : Text := ['/', '*', 'a', '*', '/', ' ', '#', 'b']
    let block : Comment := ⟨⟨2, 3, by decide, by decide⟩, ⟨0, 5, by decide, by decide⟩⟩
    let line : Comment := ⟨⟨7, 8, by decide, by decide⟩, ⟨5, 8, by decide, by decide⟩⟩
    let target : Target := .ofSpan (.point 8)
    let found : Target := ⟨line.body, some line.span, by decide⟩
    Comment.all t Settings.default = .ok [block, line] ∧ m.kind = .comment .here ∧
      line ∈ [block, line] ∧ line.target = .ok found ∧
      m.once.apply ⟨Settings.default, .none⟩ t target = .ok found ∧
      (∀ d ∈ [block, line], ¬line.Straddles t d) ∧
      m.once.apply ⟨Settings.default, .none⟩ t found = .ok found := by
  intro m t block line target found
  have hcs : Comment.all ['/', '*', 'a', '*', '/', ' ', '#', 'b'] Settings.default =
      .ok [block, line] := by cbv
  have hrun : apply { kind := .comment .here } ⟨Settings.default, .none⟩
      ['/', '*', 'a', '*', '/', ' ', '#', 'b'] (.ofSpan (.point 8)) = .ok found := by cbv
  have hc : line ∈ [block, line] := by decide
  have hnone : ∀ d ∈ [block, line], ¬(d.span.start < line.span.start ∧ line.body.start ≤ d.span.stop) := by
    decide
  have hstraddles (d : Comment) (hd : d ∈ [block, line]) : ¬line.Straddles t d :=
    fun h => hnone d hd ⟨h.start_lt, h.body_le⟩
  have hagain := (apply_comment_again (m := m) .none hcs rfl hc rfl hrun).1 hstraddles
  exact ⟨hcs, rfl, hc, rfl, hrun, hstraddles, hagain⟩

/-- From the end of a block comment that opens in a line comment the block comment is found, and
from there the line comment. -/
theorem apply_comment_again_straddling :
    let m : Modifier := { kind := .comment .here }
    let t : Text := ['#', '/', '*', 'a', '\n', '*', '/']
    let found : Target :=
      ⟨⟨3, 4, by decide, by decide⟩, some ⟨1, 7, by decide, by decide⟩, by decide⟩
    let again : Target :=
      ⟨⟨1, 4, by decide, by decide⟩, some ⟨0, 4, by decide, by decide⟩, by decide⟩
    m.apply ⟨Settings.default, .none⟩ t (.ofSpan (.point 7)) = .ok found ∧
      m.apply ⟨Settings.default, .none⟩ t found = .ok again ∧
      again.span ≠ found.span ∧ again.removed ≠ found.removed := by
  intro m t found again
  have hfound : apply { kind := .comment .here } ⟨Settings.default, .none⟩
      ['#', '/', '*', 'a', '\n', '*', '/'] (.ofSpan (.point 7)) = .ok found := by cbv
  have hagain : apply { kind := .comment .here } ⟨Settings.default, .none⟩
      ['#', '/', '*', 'a', '\n', '*', '/']
      ⟨⟨3, 4, by decide, by decide⟩, some ⟨1, 7, by decide, by decide⟩, by decide⟩ = .ok again := by
    cbv
  exact ⟨hfound, hagain, by decide, by decide⟩

/-! ## Before a comment -/

theorem find_comment_previous {env : Setting} (hkind : m.kind = .comment .previous) (s : Span) :
    m.find env t s = Comment.previous? t env.settings s >>= targetOf Comment.target := by
  simp only [find, hkind]

section

variable (lookup : SpellingLookup) (hcs : Comment.all t Settings.default = .ok cs)
include hcs

/-- A step back leads to a comment that starts before, or it leads nowhere: from a bare comment, or
where no comment ends before the body. -/
theorem step_comment_back (hkind : m.kind = .comment .previous) (hc : c ∈ cs) (hf : c.target = .ok f) :
    ∃ e ∈ cs, ∃ g, e.target = .ok g ∧ g.Within t ∧
      m.step ⟨Settings.default, lookup⟩ t f = .ok g ∧
      (¬c.Bare t ∧ e.span.start < c.span.start ∨ e = c ∧ c.Rests t cs) := by
  have hmust : m.kind.mustFind = false := by
    rw [hkind]
    rfl
  obtain ⟨f', hf', hwithin⟩ := Comment.exists_target hcs hc
  obtain rfl : f' = f := Except.ok.inj (hf'.symm.trans hf)
  have hfind : m.find ⟨Settings.default, lookup⟩ t f'.span =
      Comment.previous? t Settings.default c.body >>= targetOf Comment.target := by
    rw [find_comment_previous hkind, (Comment.of_target hf).1]
  obtain ⟨o, ho⟩ : ∃ o, Comment.previous? t Settings.default c.body = .ok o :=
    ⟨_, Comment.previous?_eq hcs⟩
  rw [ho] at hfind
  cases o with
  | none =>
    refine ⟨c, hc, f', hf, hwithin, step_eq_ok_iff.2 (.inr ⟨hfind, hmust, rfl⟩), .inr ⟨rfl, .inr ?_⟩⟩
    exact fun d hd => Comment.of_previous?_eq_none hcs ho hd
  | some e =>
    obtain ⟨he, hback, hself⟩ := Comment.of_previous?_body hcs hc ho
    obtain ⟨g, hg, hwithin'⟩ := Comment.exists_target hcs he
    refine ⟨e, he, g, hg, hwithin', step_eq_ok_iff.2 (.inl (hfind.trans (targetOf_some hg))), ?_⟩
    by_cases hbare : c.Bare t
    · exact .inr ⟨hself hbare, .inl hbare⟩
    · exact .inl ⟨hbare, hback hbare⟩

/-- If another comment ends before it, a step back from a comment leads to one that starts before, or
from a bare comment nowhere. -/
theorem step_comment_back_before (hkind : m.kind = .comment .previous) (hc : c ∈ cs)
    (hf : c.target = .ok f) (hd : d ∈ cs) (hbefore : d.span.stop ≤ c.span.start) :
    ∃ e ∈ cs, ∃ g, e.target = .ok g ∧ g.Within t ∧
      m.step ⟨Settings.default, lookup⟩ t f = .ok g ∧
      (¬c.Bare t → e.span.start < c.span.start) ∧ (c.Bare t → g = f) := by
  obtain ⟨e, he, g, hg, hwithin, hstep, hback⟩ := step_comment_back lookup hcs hkind hc hf
  refine ⟨e, he, g, hg, hwithin, hstep, fun hbare => ?_, fun hbare => ?_⟩
  · rcases hback with ⟨-, hlt⟩ | ⟨-, hbare' | hnone⟩
    · exact hlt
    · exact absurd hbare' hbare
    · have hin := hnone d hd
      have hbody := Span.touches_iff.1 (Comment.touches_body hcs hc)
      omega
  · rcases hback with ⟨hbare', -⟩ | ⟨rfl, -⟩
    · exact absurd hbare hbare'
    · exact Except.ok.inj (hg.symm.trans hf)

/-- What a step back answers is a comment, unless no comment ends before the target. -/
theorem of_step_comment_back (hkind : m.kind = .comment .previous)
    (h : m.step ⟨Settings.default, lookup⟩ t target = .ok found) :
    (∃ c ∈ cs, c.target = .ok found) ∨
      found = target ∧ ∀ d ∈ cs, target.span.start < d.span.stop := by
  have hfind : m.find ⟨Settings.default, lookup⟩ t target.span = _ := find_comment_previous hkind _
  rcases step_eq_ok_iff.1 h with hsome | ⟨hnone, -, rfl⟩
  · obtain ⟨o, ho, hsome⟩ := bind_eq_ok.1 (hfind.symm.trans hsome)
    obtain ⟨c, rfl, hc⟩ := exists_of_targetOf hsome
    rw [Comment.previous?_eq hcs] at ho
    exact .inl ⟨c, List.mem_reverse.1 (List.mem_of_find?_eq_some (Except.ok.inj ho)), hc⟩
  · obtain ⟨o, ho, hnone⟩ := bind_eq_ok.1 (hfind.symm.trans hnone)
    obtain rfl := eq_none_of_targetOf hnone
    exact .inr ⟨rfl, fun d hd => Comment.of_previous?_eq_none hcs ho hd⟩

/-- So many steps back lead to a comment that starts so much earlier, or from which there is no way
back. -/
theorem steps_comment_back {n : Nat} (hkind : m.kind = .comment .previous) (hc : c ∈ cs)
    (hf : c.target = .ok f) : ∃ e ∈ cs, ∃ g, e.target = .ok g ∧
      m.steps ⟨Settings.default, lookup⟩ t n f = .ok g ∧
      (e.Rests t cs ∨ e.span.start + n ≤ c.span.start) := by
  induction n generalizing c f with
  | zero => exact ⟨c, hc, f, hf, rfl, .inr (Nat.le_refl _)⟩
  | succ n ih =>
    obtain ⟨e, he, g, hg, hwithin, hstep, hback⟩ := step_comment_back lookup hcs hkind hc hf
    rcases hback with ⟨-, hlt⟩ | ⟨rfl, hrests⟩
    · obtain ⟨last, hlast, f', hf', hsteps, hback⟩ := ih he hg
      refine ⟨last, hlast, f', hf', bind_eq_ok.2 ⟨g, hstep, ?_⟩, hback.imp_right fun hle => by omega⟩
      exact bind_eq_ok.2 ⟨(), checkWithin_eq_ok_iff.2 hwithin, hsteps⟩
    · obtain rfl : f = g := Except.ok.inj (hf.symm.trans hg)
      exact ⟨e, he, f, hf, steps_at_rest (n + 1) hwithin hstep, .inl hrests⟩

/-- **Comments in turn, backwards.** From the comment that the modifier for the previous comment has
answered, if another comment ends where that one starts or before, it answers a comment that starts
earlier; only where nothing stands behind the marker it answers the same comment again. Repeated more
often than the text has characters, it comes to such a bare comment, or to one before which no
comment starts but line comments that it opens in. -/
theorem apply_comments_back (hkind : m.kind = .comment .previous) (hd : d ∈ cs)
    (h : m.once.apply ⟨Settings.default, lookup⟩ t target = .ok found)
    (hbefore : d.span.stop ≤ found.removed.start) :
    ∃ c ∈ cs, c.target = .ok found ∧
      (∃ e ∈ cs, ∃ again, e.target = .ok again ∧
        m.once.apply ⟨Settings.default, lookup⟩ t found = .ok again ∧
        (¬c.Bare t → e.span.start < c.span.start) ∧ (c.Bare t → again = found)) ∧
      (t.length < m.repetitions → ∃ e ∈ cs, ∃ last, e.target = .ok last ∧
        m.apply ⟨Settings.default, lookup⟩ t target = .ok last ∧
        (e.Bare t ∨ ∀ b ∈ cs, b.span.start < e.span.start →
          e.body.start < b.span.stop ∧ ∃ i marker, LineAt t i marker b)) := by
  have hne := Comment.ne_nil_of_mem hcs hd
  obtain ⟨ht, hrun⟩ := apply_once_eq_ok_iff.1 h
  rw [if_neg hne] at hrun
  obtain ⟨hstep, hwithin⟩ := hrun
  have hfound : ∃ c ∈ cs, c.target = .ok found := by
    refine (of_step_comment_back lookup hcs hkind hstep).resolve_right ?_
    rintro ⟨rfl, hnone⟩
    have hin := hnone d hd
    have hcontains := Span.contains_iff.1 found.contains_removed
    omega
  obtain ⟨c, hc, hfound⟩ := hfound
  rw [(Comment.of_target hfound).2] at hbefore
  refine ⟨c, hc, hfound, ?_, fun hrep => ?_⟩
  · obtain ⟨e, he, again, hagain, hwithin', hstep', hback⟩ :=
      step_comment_back_before lookup hcs hkind hc hfound hd hbefore
    refine ⟨e, he, again, hagain, apply_once_eq_ok_iff.2 ⟨hwithin, ?_⟩, hback⟩
    rw [if_neg hne]
    exact ⟨hstep', hwithin'⟩
  · obtain ⟨n, hn⟩ := Nat.exists_eq_succ_of_ne_zero (Nat.ne_zero_of_lt hrep)
    obtain ⟨e, he, last, hlast, hsteps, hback⟩ :=
      steps_comment_back (n := n) lookup hcs hkind hc hfound
    refine ⟨e, he, last, hlast, ?_, ?_⟩
    · rw [apply_eq_steps (Nat.ne_zero_of_lt hrep) hne ht, hn]
      exact bind_eq_ok.2 ⟨found, hstep, bind_eq_ok.2 ⟨(), checkWithin_eq_ok_iff.2 hwithin, hsteps⟩⟩
    · rcases hback with hbare | hle
      · refine hbare.imp_right fun hnone b hb hlt => ⟨hnone b hb, ?_⟩
        exact Comment.lineAt_of_body_le hcs he hb hlt (Nat.le_of_lt (hnone b hb))
      · have hlt := Comment.start_lt_length hcs hc
        omega

end

/-- Back from the end of the second of two comments, and so often again. -/
theorem apply_comments_back_blocks :
    let m : Modifier := { kind := .comment .previous, repetitions := 12 }
    let t : Text := ['/', '*', 'a', '*', '/', ' ', '/', '*', 'b', '*', '/']
    let first : Comment := ⟨⟨2, 3, by decide, by decide⟩, ⟨0, 5, by decide, by decide⟩⟩
    let second : Comment := ⟨⟨8, 9, by decide, by decide⟩, ⟨5, 11, by decide, by decide⟩⟩
    let target : Target := .ofSpan (.point 11)
    let found : Target := ⟨second.body, some second.span, by decide⟩
    Comment.all t Settings.default = .ok [first, second] ∧ m.kind = .comment .previous ∧
      first ∈ [first, second] ∧ m.once.apply ⟨Settings.default, .none⟩ t target = .ok found ∧
      first.span.stop ≤ found.removed.start ∧ t.length < m.repetitions ∧
      (∃ e ∈ [first, second], ∃ again, e.target = .ok again ∧
        m.once.apply ⟨Settings.default, .none⟩ t found = .ok again ∧
        e.span.start < second.span.start) ∧
      ∃ e ∈ [first, second], ∃ last, e.target = .ok last ∧
        m.apply ⟨Settings.default, .none⟩ t target = .ok last ∧
        (e.Bare t ∨ ∀ b ∈ [first, second], b.span.start < e.span.start →
          e.body.start < b.span.stop ∧ ∃ i marker, LineAt t i marker b) := by
  intro m t first second target found
  have hcs : Comment.all ['/', '*', 'a', '*', '/', ' ', '/', '*', 'b', '*', '/'] Settings.default =
      .ok [first, second] := by cbv
  have hrun : apply { kind := .comment .previous } ⟨Settings.default, .none⟩
      ['/', '*', 'a', '*', '/', ' ', '/', '*', 'b', '*', '/'] (.ofSpan (.point 11)) =
      .ok found := by cbv
  obtain ⟨c, hc, hfound, ⟨e, he, again, hagain, happly, hback, -⟩, hrepeated⟩ :=
    apply_comments_back (m := m) .none hcs rfl List.mem_cons_self hrun (Nat.le_refl 5)
  obtain rfl : second = c := Comment.eq_of_target hfound rfl
  have hbare : ¬second.Bare t := mt (Comment.bare_iff hcs hc).1 (by decide)
  exact ⟨hcs, rfl, List.mem_cons_self, hrun, by decide, by decide,
    ⟨e, he, again, hagain, happly, hback hbare⟩, hrepeated (by decide)⟩

/-- From a comment with nothing behind its marker there is no way back to the comment before it. -/
theorem apply_comments_back_bare :
    let m : Modifier := { kind := .comment .previous }
    let t : Text := ['#', ' ', 'a', '\n', '#']
    let first : Comment := ⟨⟨2, 3, by decide, by decide⟩, ⟨0, 3, by decide, by decide⟩⟩
    let bare : Comment := ⟨⟨5, 5, by decide, by decide⟩, ⟨4, 5, by decide, by decide⟩⟩
    let found : Target := ⟨bare.body, some bare.span, by decide⟩
    Comment.all t Settings.default = .ok [first, bare] ∧
      m.apply ⟨Settings.default, .none⟩ t (.ofSpan (.point 5)) = .ok found ∧
      first.span.stop ≤ found.removed.start ∧
      m.apply ⟨Settings.default, .none⟩ t found = .ok found := by
  intro m t first bare found
  have hcs : Comment.all ['#', ' ', 'a', '\n', '#'] Settings.default = .ok [first, bare] := by cbv
  have hfound : apply { kind := .comment .previous } ⟨Settings.default, .none⟩
      ['#', ' ', 'a', '\n', '#'] (.ofSpan (.point 5)) = .ok found := by cbv
  have hagain : apply { kind := .comment .previous } ⟨Settings.default, .none⟩
      ['#', ' ', 'a', '\n', '#']
      ⟨⟨5, 5, by decide, by decide⟩, some ⟨4, 5, by decide, by decide⟩, by decide⟩ = .ok found := by
    cbv
  exact ⟨hcs, hfound, by decide, hagain⟩

end Modifier

end VoiceEdit
