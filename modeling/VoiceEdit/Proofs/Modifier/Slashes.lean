import VoiceEdit.Proofs.Code.Slashes
import VoiceEdit.Proofs.Modifier.Overlapping

/-!
# Comments and the slashes of a URL

In a text whose only markers are slashes, a comment that is answered begins with two of them. Right
behind a colon two slashes are left alone, but in a run of three or more the second and the third begin
a comment, which is answered from there if no marker stands before the run on its line.

Results:

* `lineComment_of_find`, `lineComment_of_find_next`: what is found begins with the marker of a line, and
  where such a marker is found.
* `apply_comment_slashes`: which slashes behind a colon begin a comment.
-/
namespace VoiceEdit.Modifier

open Comment (Begins Leads LineAt UrlSlashes)

variable {m : Modifier} {t marker : Text} {c : Comment} {cs : List Comment} {s : Span}
  {target found : Target} {place : Place} {i j k n : Nat}

theorem lineComment_of_lineAt (h : LineAt t k marker c) (hfound : c.target = .ok found) :
    LineComment t k marker.length (t.lineEnd k) found := by
  obtain ⟨hspan, hremoved⟩ := Comment.of_target hfound
  have hmarked := h.markedAt
  exact ⟨by rw [hspan]; exact hmarked.body, by rw [hremoved, hmarked.start_eq],
    by rw [hremoved, h.stop_eq]⟩

/-- From where a comment starts, it is the next one. -/
theorem pick_next_of_mem (hcs : Comment.all t Settings.default = .ok cs) (hc : c ∈ cs) :
    pick t (.point c.span.start) cs .next = some c := by
  obtain ⟨-, -, -, -, hsorted⟩ := Comment.exists_all hcs
  have hbehind : decide ((Span.point c.span.start).stop ≤ c.span.start) = true :=
    decide_eq_true (Nat.le_refl _)
  cases hfind : pick t (.point c.span.start) cs .next with
  | none => exact absurd hbehind (List.find?_eq_none.1 hfind c hc)
  | some e =>
    have hle : decide (c.span.start ≤ e.span.start) = true := List.find?_some
      (p := fun e : Comment => decide (c.span.start ≤ e.span.start)) hfind
    rcases eq_or_of_find? hsorted hfind hc hbehind with rfl | hbefore
    · rfl
    · rw [Comment.eq_of_start_eq hcs hc (mem_of_pick hfind)
        (Nat.le_antisymm hbefore (of_decide_eq_true hle))]

section

variable (lookup : SpellingLookup) (hopen : ¬['/', '*'] <:+: t)
include hopen

/-- What is found begins with two slashes, which lead a line. -/
theorem lineComment_of_find (hhash : '#' ∉ t) (hkind : m.kind = .comment place)
    (h : m.find ⟨Settings.default, lookup⟩ t s = .ok (some found)) :
    ∃ n < t.lineCount, ∃ k, Leads Settings.default t n k ['/', '/'] ∧
      LineComment t k 2 (t.lineEnd k) found := by
  rw [find_comments hkind] at h
  obtain ⟨cs, hcs, h⟩ := bind_eq_ok.1 h
  obtain ⟨c, hpick, hfound⟩ := exists_of_targetOf h
  obtain ⟨n, hn, k, hleads, hline⟩ := Comment.exists_leads_slashes hopen hhash hcs (mem_of_pick hpick)
  exact ⟨n, hn, k, hleads, lineComment_of_lineAt hline hfound⟩

/-- The second of three slashes that leads a line begins the next comment from there. -/
theorem lineComment_of_find_next (hurl : UrlSlashes t i j) (hn : n < t.lineCount)
    (hleads : Leads Settings.default t n (i + 1) ['/', '/']) {r : Option Target}
    (h : find { kind := .comment .next } ⟨Settings.default, lookup⟩ t (.point (i + 1)) = .ok r) :
    ∃ f, r = some f ∧ LineComment t (i + 1) 2 (t.lineEnd (i + 1)) f := by
  have hkind : ({ kind := .comment .next } : Modifier).kind = .comment .next := rfl
  rw [find_comments hkind] at h
  obtain ⟨cs, hcs, h⟩ := bind_eq_ok.1 h
  obtain ⟨c, hc, hline⟩ := Comment.exists_of_leads hcs hn hleads (Comment.not_inBlock hopen)
  have hspan : c.span.start = i + 1 := by
    -- A slash stands before the marker, so the span has no blanks before that.
    have htwo := hurl.two_le
    have hslash : t.nextIs isBlank i = false := by
      rw [Text.nextIs, hurl.slash i (by omega) (Nat.le_refl i)]
      rfl
    have hrun := Text.runBefore_le_of_not_nextIs (i := i + 1) hline.markedAt.le_text hslash
      (Nat.lt_succ_self i)
    rw [hline.markedAt.start_eq]
    omega
  rw [← hspan, pick_next_of_mem hcs hc] at h
  obtain ⟨f, hf, rfl⟩ := map_eq_ok.1 h
  exact ⟨f, rfl, lineComment_of_lineAt hline hf⟩

/-- **The slashes of a URL.** In a text without double quotes, `#` and `/*`, the modifiers for comments
keep their target or answer a comment that begins with two slashes. If these stand in a run of slashes
right behind a colon, they are the second and the third of three or more. And in every such run a
comment does begin with these two if no marker stands before the run on a line with it: it is the next
comment from there. -/
theorem apply_comment_slashes (hhash : '#' ∉ t) (hquote : '"' ∉ t) :
    (∀ (m : Modifier) (place : Place) (target : Target), m.kind = .comment place →
      m.repetitions ≠ 0 → target.removed.stop ≤ t.length →
      Answers t (m.apply ⟨Settings.default, lookup⟩ t target) fun found =>
        found = target ∨ ∃ k, Begins Settings.default t k ['/', '/'] ∧
          LineComment t k 2 (t.lineEnd k) found ∧
          ∀ i j, UrlSlashes t i j → i ≤ k → k < j → k = i + 1 ∧ i + 3 ≤ j) ∧
    ∀ i j, UrlSlashes t i j → i + 3 ≤ j → ∀ n < t.lineCount, t.startOfLine n ≤ i →
      i < t.lineEnd (t.startOfLine n) →
      (∀ k < i, t.startOfLine n ≤ k → ¬Begins Settings.default t k ['/', '/']) →
      Answers t (apply { kind := .comment .next } ⟨Settings.default, lookup⟩ t
        (.ofSpan (.point (i + 1)))) (LineComment t (i + 1) 2 (t.lineEnd (i + 1))) := by
  have hfinds {m : Modifier} {place : Place} (hkind : m.kind = .comment place) (s : Span)
      (ht : t.length ≤ Span.limit) : Finds t (m.find ⟨Settings.default, lookup⟩ t s) :=
    finds_comment hkind ht (Comment.not_overruns Settings.oneLine_default)
  refine ⟨fun m place target hkind hrep htarget => ?_, fun i j hurl hthree n hn hstart hstop hfirst => ?_⟩
  · have hmust : m.kind.mustFind = false := by
      rw [hkind]
      rfl
    refine apply_keeps hrep htarget (.inl rfl) fun next hnext hkept => ?_
    refine step_finds_or_keeps hmust hnext (hfinds hkind next.span) (fun found hfound => ?_)
      fun _ => hkept
    obtain ⟨n, hn, k, hleads, hcomment⟩ := lineComment_of_find lookup hopen hhash hkind hfound
    refine ⟨?_, .inr ⟨k, hleads.begins, hcomment, fun i j hurl hik hkj =>
      hurl.eq_of_leads hquote hn hleads hik hkj⟩⟩
    rw [Target.Within, hcomment.stop_eq]
    exact t.lineEnd_le_length k
  · have hleads := hurl.leads hquote hhash hthree hstart hstop hfirst
    have hlen := hleads.lt_length
    exact apply_answers_of_find rfl (List.ne_nil_of_length_pos (by omega)) (Nat.le_of_lt hlen)
      (hfinds rfl (.point (i + 1)))
      fun r hr => lineComment_of_find_next lookup hopen hurl hn hleads hr

end

/-- Of `a://b :///c` the two slashes are left alone, and the second of the three begins a comment. -/
theorem apply_comment_slashes_both :
    let m : Modifier := { kind := .comment .here }
    let t : Text := ['a', ':', '/', '/', 'b', ' ', ':', '/', '/', '/', 'c']
    let target : Target := .ofSpan (.point 0)
    ¬['/', '*'] <:+: t ∧ '#' ∉ t ∧ '"' ∉ t ∧ m.kind = .comment .here ∧
      m.repetitions ≠ 0 ∧ target.removed.stop ≤ t.length ∧ UrlSlashes t 2 4 ∧ UrlSlashes t 7 10 ∧
      (∃ found, m.apply ⟨Settings.default, .none⟩ t target = .ok found ∧ found.removed.start = 8 ∧
        ∃ k, LineComment t k 2 (t.lineEnd k) found ∧
          ∀ i j, UrlSlashes t i j → i ≤ k → k < j → k = i + 1 ∧ i + 3 ≤ j) ∧
      ∃ found, apply { kind := .comment .next } ⟨Settings.default, .none⟩ t (.ofSpan (.point 8)) =
        .ok found ∧ LineComment t 8 2 (t.lineEnd 8) found := by
  intro m t target
  have hhash : '#' ∉ t := by decide
  have hopen : ¬['/', '*'] <:+: t := by decide
  have hquote : '"' ∉ t := by decide
  have htwo : UrlSlashes t 2 4 := by decide
  have hthree : UrlSlashes t 7 10 := by decide
  have hrun : apply { kind := .comment .here } ⟨Settings.default, .none⟩
      ['a', ':', '/', '/', 'b', ' ', ':', '/', '/', '/', 'c'] (.ofSpan (.point 0)) =
      .ok ⟨⟨10, 11, by decide, by decide⟩, some ⟨8, 11, by decide, by decide⟩, by decide⟩ := by cbv
  have hlimit : ¬Span.limit < t.length := by decide
  obtain ⟨hall, hnext⟩ := apply_comment_slashes .none hopen hhash hquote
  refine ⟨hopen, hhash, hquote, rfl, by decide, by decide, htwo, hthree, ?_, ?_⟩
  · obtain ⟨found, happly, hfound⟩ := (hall m .here target rfl (by decide) (by decide)).resolve_right
      fun hlong => hlimit hlong.1
    obtain rfl := Except.ok.inj (hrun.symm.trans happly)
    rcases hfound with hkept | ⟨k, -, hcomment, hurl⟩
    · exact absurd hkept (by decide)
    · exact ⟨_, happly, rfl, k, hcomment, hurl⟩
  · exact (hnext 7 10 hthree (by decide) 0 (by decide) (by decide) (by decide) (by decide)).resolve_right
      fun hlong => hlimit hlong.1

/-- In `file:///x` a comment begins among the slashes behind the colon. -/
theorem apply_comment_in_url :
    let t : Text := ['f', 'i', 'l', 'e', ':', '/', '/', '/', 'x']
    '"' ∉ t ∧ '#' ∉ t ∧ ¬['/', '*'] <:+: t ∧ UrlSlashes t 5 8 ∧
      ∃ found, apply { kind := .comment .here } ⟨Settings.default, .none⟩ t (.ofSpan (.point 0)) =
          .ok found ∧
        Begins Settings.default t 6 ['/', '/'] ∧ LineComment t 6 2 (t.lineEnd 6) found := by
  intro t
  have hrun : apply { kind := .comment .here } ⟨Settings.default, .none⟩
      ['f', 'i', 'l', 'e', ':', '/', '/', '/', 'x'] (.ofSpan (.point 0)) =
      .ok ⟨⟨8, 9, by decide, by decide⟩, some ⟨6, 9, by decide, by decide⟩, by decide⟩ := by cbv
  have hbody : Text.Trims t 8 9 8 9 :=
    ⟨by decide, by decide, by decide, fun i hi hlt => absurd hlt (Nat.not_lt_of_le hi),
      fun i hi hlt => absurd hlt (Nat.not_lt_of_le hi), fun _ => by decide, fun _ => by decide⟩
  exact ⟨by decide, by decide, by decide, by decide, _, hrun, by decide, hbody, rfl, rfl⟩

end VoiceEdit.Modifier
