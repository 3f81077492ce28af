import VoiceEdit.Code.Argument
import VoiceEdit.Code.Bracket
import VoiceEdit.Code.Call
import VoiceEdit.Proofs.Code.Marked
import VoiceEdit.Proofs.Code.Nested
import VoiceEdit.Proofs.Text.Runs

/-!
# Steps through code go on

A literal, a call or a pair of brackets is not empty, so one that lies behind a span ends
behind it and one that lies before a span starts before it. The body of a comment may be
empty, but it lies behind its marker. An argument is bounded by the very separator or
parenthesis that a step has come to, which is one of its own.

Results:

* `Literal.next_stop`, `Literal.previous_start`: the next and the previous literal.
* `Comment.next_stop`: the next comment. One without a body may end where it is looked for
  from, so that there is no such result for the previous one.
* `Call.next_stop`, `Call.previous_start`, `Bracket.next_stop`, `Bracket.previous_start`.
* `Argument.around?_spec`: what is selected as an argument, and what is removed with it.
* `Argument.next_stop`, `Argument.previous_start`: the arguments in turn.
-/
namespace VoiceEdit

variable {t : Text} {s : Span} {f : Target}

/-! ## Literals -/

namespace Literal

variable {q : Char} {l : Literal}

/-- What a literal selects lies between its delimiters. -/
theorem target_bounds (hl : l ∈ all t q) (h : l.target = .ok f) :
    l.start < f.span.start ∧ f.span.stop < l.stop := by
  obtain ⟨-, hwidth, -, hstop, -⟩ := mem_literalsFrom_bounds hl
  obtain ⟨outer, inner, -, hinner, h⟩ := target_eq_ok.1 h
  obtain ⟨h₁, h₂, -⟩ := Span.ofBounds_eq_ok_iff.1 hinner
  rw [(Target.withRemoval_eq_ok_iff.1 h).1]
  omega

/-- The next literal is the first in the text that lies behind. -/
theorem next?_eq {o : Option Literal} (h : next? t q s = .ok o) :
    o = (all t q).find? fun l => decide (s.stop ≤ l.start) :=
  pick_checked h

/-- The previous literal is the last in the text that lies before. -/
theorem previous?_eq {o : Option Literal} (h : previous? t q s = .ok o) :
    o = (all t q).reverse.find? fun l => decide (l.stop ≤ s.start) :=
  pick_checked h

theorem next_stop (hl : next? t q s = .ok (some l)) (h : l.target = .ok f) :
    s.stop < f.span.stop := by
  have hl := (next?_eq hl).symm
  have hbehind : s.stop ≤ l.start := by simpa using List.find?_some hl
  have hstart := (target_bounds (List.mem_of_find?_eq_some hl) h).1
  have := f.span.start_le_stop
  omega

theorem previous_start (hl : previous? t q s = .ok (some l)) (h : l.target = .ok f) :
    f.span.start < s.start := by
  have hl := (previous?_eq hl).symm
  have hbefore : l.stop ≤ s.start := by simpa using List.find?_some hl
  have hstop := (target_bounds (List.mem_reverse.1 (List.mem_of_find?_eq_some hl)) h).2
  have := f.span.start_le_stop
  omega

end Literal

/-! ## Comments -/

namespace Comment

variable {c : Comment} {cs : List Comment} {settings : Settings}

/-- The blanks before the marker belong to a comment, and its body lies behind the marker. -/
theorem ofParts_bounds {marker start stop last : Nat} (h : ofParts t marker start stop last = .ok c) :
    c.span.start ≤ marker ∧ start ≤ c.body.start := by
  obtain ⟨hbody, hstart, -⟩ := of_ofParts h
  have hle := t.le_trimmedBounds start stop
  rw [← hbody] at hle
  rw [hstart]
  exact ⟨Nat.sub_le _ _, hle⟩

/-- No marker is empty, so the body of a comment starts behind the comment. -/
theorem start_lt_body (hcs : all t settings = .ok cs) (hc : c ∈ cs) : c.span.start < c.body.start := by
  obtain ⟨blocks, hblocks, hmem, -, -⟩ := exists_all hcs
  rcases (hmem c).1 hc with hblock | ⟨n, -, hline⟩
  · obtain ⟨m, -, hne, o, -, hparts⟩ := exists_of_mem_blocks hblocks hblock
    have hlen := List.length_pos_iff.2 hne.1
    have := ofParts_bounds hparts
    omega
  · obtain ⟨k, marker, hleads, -, hparts⟩ := exists_of_lineComment? hline
    have hlen := List.length_pos_iff.2 hleads.begins.ne_nil
    have := ofParts_bounds hparts
    omega

theorem next_stop (hc : next? t settings s = .ok (some c)) (h : c.target = .ok f) :
    s.stop < f.span.stop := by
  obtain ⟨cs, hcs, hfind⟩ := bind_eq_ok.1 hc
  have hfind : (cs.find? fun c => decide (s.stop ≤ c.span.start)) = some c := Except.ok.inj hfind
  have hbehind : s.stop ≤ c.span.start := by simpa using List.find?_some hfind
  have hbody := start_lt_body hcs (List.mem_of_find?_eq_some hfind)
  have hle := c.body.start_le_stop
  rw [(Target.withRemoval_eq_ok_iff.1 h).1]
  omega

end Comment

/-! ## Calls -/

namespace Call

variable {call : Span}

theorem whole?_eq_some_iff {opener : Nat} : whole? t opener = some call ↔
    at? t opener = .ok (some call) := by
  unfold whole?
  cases at? t opener with
  | error e => exact ⟨nofun, nofun⟩
  | ok o =>
    constructor
    · intro h
      exact congrArg Except.ok h
    · intro h
      exact Except.ok.inj h

/-- A call starts at its callee and ends with the parenthesis that closes its arguments. -/
theorem at?_eq_ok_some_iff {opener : Nat} : at? t opener = .ok (some call) ↔
    opensArguments t opener = true ∧ calleeStart t opener < opener ∧
      ∃ closer, t.closing? (· == '(') (· == ')') opener = some closer ∧
        call.start = calleeStart t opener ∧ call.stop = closer + 1 := by
  unfold at?
  by_cases harguments : (!opensArguments t opener) = true
  · rw [if_pos harguments]
    refine iff_of_false nofun fun h => ?_
    rw [h.1] at harguments
    cases harguments
  · rw [if_neg harguments]
    rw [Bool.not_eq_true', Bool.not_eq_false] at harguments
    have hle := calleeStart_le t opener
    cases hclose : t.closing? (· == '(') (· == ')') opener with
    | none => exact iff_of_false nofun fun ⟨_, _, _, h, _⟩ => by cases h
    | some closer =>
      simp only
      by_cases hempty : calleeStart t opener = opener
      · rw [if_pos hempty]
        exact iff_of_false nofun fun h => absurd h.2.1 (by omega)
      · rw [if_neg hempty]
        constructor
        · intro h
          obtain ⟨span, hspan, heq⟩ := map_eq_ok.1 h
          cases heq
          obtain ⟨hstart, hstop, -⟩ := Span.ofBounds_eq_ok_iff.1 hspan
          exact ⟨harguments, by omega, closer, rfl, hstart, hstop⟩
        · rintro ⟨-, hlt, closer', heq, hstart, hstop⟩
          cases heq
          have hopener := (Text.closing?_bounds hclose).1
          have hlimit := call.stop_le_limit (by omega)
          exact map_eq_ok.2 ⟨call, Span.ofBounds_eq_ok_iff.2 ⟨hstart, hstop, by omega⟩, rfl⟩

/-- A call holds at least the parentheses of its arguments. -/
theorem start_lt_stop_of_whole? {opener : Nat} (h : whole? t opener = some call) :
    call.start < call.stop := by
  obtain ⟨-, hlt, closer, hclose, hstart, hstop⟩ := at?_eq_ok_some_iff.1 (whole?_eq_some_iff.1 h)
  have hopener := (Text.closing?_bounds hclose).1
  omega

theorem next_stop (h : next? t s = some call) : s.stop < call.stop := by
  have hbehind : s.stop ≤ call.start := by simpa using List.find?_some h
  obtain ⟨opener, -, hcall⟩ := List.mem_filterMap.1 (List.mem_of_find?_eq_some h)
  have := start_lt_stop_of_whole? hcall
  omega

theorem previous_start (h : previous? t s = some call) : call.start < s.start := by
  have hbefore : call.stop ≤ s.start := by simpa using List.find?_some h
  obtain ⟨opener, -, hcall⟩ := List.mem_filterMap.1 (List.mem_of_find?_eq_some h)
  have := start_lt_stop_of_whole? hcall
  omega

end Call

/-! ## Brackets -/

namespace Bracket

variable {pair : Span} {ms : List Mark} {pos : Nat}

/-- A pair that is read forwards opens where the reading began or behind it. -/
theorem firstPairFrom?_bounds (h : firstPairFrom? pos ms = some pair) :
    pos ≤ pair.start ∧ pair.start < pair.stop := by
  fun_induction firstPairFrom? pos ms with
  | case1 pos b rest p hpair =>
    cases h
    obtain ⟨n, -, hn⟩ := Option.bind_eq_some_iff.1 hpair
    have := Span.bounds_of_toOption hn
    omega
  | case2 pos b rest hpair ih =>
    have := ih h
    omega
  | case3 pos m rest hm ih =>
    have := ih h
    omega
  | case4 => cases h

/-- A pair that is read backwards opens before it closes. -/
theorem lastPairIn?_bounds (h : lastPairIn? ms = some pair) :
    pair.start < pair.stop ∧ pair.stop ≤ ms.length := by
  refine ⟨?_, lastPairIn?_le h⟩
  fun_induction lastPairIn? ms with
  | case1 b rest p hpair =>
    cases h
    obtain ⟨o, ho, hbounds⟩ := Option.bind_eq_some_iff.1 hpair
    have := mem_unclosed_lt (List.mem_of_head? ho)
    have := Span.bounds_of_toOption hbounds
    omega
  | case2 b rest hpair ih => exact ih h
  | case3 m rest hm ih => exact ih h
  | case4 => cases h

theorem next_stop (h : next? t s = some pair) : s.stop < pair.stop := by
  have := firstPairFrom?_bounds h
  omega

theorem previous_start (h : previous? t s = some pair) : pair.start < s.start := by
  obtain ⟨hlt, hle⟩ := lastPairIn?_bounds h
  rw [List.length_reverse, List.length_take] at hle
  omega

end Bracket

/-! ## Arguments -/

namespace Argument

variable {i n : Nat} {cs : List Char}

/-- A step comes to the parenthesis of a call or to a separator. -/
theorem boundaryOffset_char {entry : Char} {enter leave : Char → Bool} {depth : Nat} {left : Bool}
    (h : boundaryOffset entry enter leave depth left cs = some n) :
    ∃ c, cs[n]? = some c ∧ (c = entry ∨ isSeparator c = true) := by
  fun_induction boundaryOffset entry enter leave depth left cs generalizing n with
  | case1 => cases h
  | case2 =>
    cases h
    exact ⟨_, rfl, .inl rfl⟩
  | case6 _ _ c _ _ _ _ hsep =>
    cases h
    simp only [Bool.and_eq_true] at hsep
    exact ⟨c, rfl, .inr hsep.1.1⟩
  | case3 _ _ _ _ _ _ ih | case4 _ _ _ _ _ _ ih | case5 _ _ _ _ _ _ _ ih | case7 _ _ _ _ _ _ _ _ ih =>
    obtain ⟨m, hm, rfl⟩ := Option.map_eq_some_iff.1 h
    exact ih hm

theorem nextBoundary?_spec (h : nextBoundary? t i = some n) :
    i ≤ n ∧ ∃ c, t[n]? = some c ∧ (c = '(' ∨ isSeparator c = true) := by
  obtain ⟨k, hk, rfl⟩ := Option.map_eq_some_iff.1 h
  obtain ⟨c, hc, hkind⟩ := boundaryOffset_char hk
  rw [Text.after, List.getElem?_drop] at hc
  exact ⟨Nat.le_add_right _ _, c, hc, hkind⟩

theorem previousBoundary?_spec (hi : i ≤ t.length) (h : previousBoundary? t i = some n) :
    n < i ∧ ∃ c, t[n]? = some c ∧ (c = ')' ∨ isSeparator c = true) := by
  have hlt := previousBoundary?_lt h
  obtain ⟨k, hk, rfl⟩ := Option.map_eq_some_iff.1 h
  obtain ⟨c, hc, hkind⟩ := boundaryOffset_char hk
  have hk := boundaryOffset_lt hk
  rw [t.length_before] at hk
  rw [Text.getElem?_before hi (by omega)] at hc
  exact ⟨hlt, c, hc, hkind⟩

/-- Read backwards, an argument ends at the parenthesis of a call, or at a separator. -/
theorem exitOffset_left {c : Char} (h : c = '(' ∨ isSeparator c = true) (rest : List Char) :
    exitOffset isCloseGroup isOpenGroup isSeparator 0 (c :: rest) = some 0 := by
  rcases h with rfl | hsep
  · exact exitOffset_eq_zero rest rfl (.inl rfl)
  · exact exitOffset_eq_zero rest (not_group_of_isSeparator hsep).2 (.inr hsep)

/-- Read forwards, an argument ends at the parenthesis of a call, or at a separator. -/
theorem exitOffset_right {c : Char} (h : c = ')' ∨ isSeparator c = true) (rest : List Char) :
    exitOffset isOpenGroup isCloseGroup isSeparator 0 (c :: rest) = some 0 := by
  rcases h with rfl | hsep
  · exact exitOffset_eq_zero rest rfl (.inl rfl)
  · exact exitOffset_eq_zero rest (not_group_of_isSeparator hsep).1 (.inr hsep)

/-- Right behind the parenthesis of a call, or a separator, an argument is bounded by it. -/
theorem leftBoundary?_succ {c : Char} (hc : t[i]? = some c) (h : c = '(' ∨ isSeparator c = true) :
    leftBoundary? t (i + 1) = some i := by
  rw [leftBoundary?, Text.before_succ hc, exitOffset_left h]
  rfl

/-- Right before the parenthesis of a call, or a separator, an argument is bounded by it. -/
theorem rightBoundary?_self {c : Char} (hc : t[i]? = some c) (h : c = ')' ∨ isSeparator c = true) :
    rightBoundary? t i = some i := by
  rw [rightBoundary?, Text.after_eq_cons hc, exitOffset_right h]
  rfl

theorem of_withRemoval? {removal : Option Span}
    (h : (do return some (← Target.withRemoval? s removal)) = Except.ok (ε := Span.Error) (some f)) :
    f.span = s ∧ f.removal = removal := by
  obtain ⟨target, htarget, h⟩ := bind_eq_ok.1 h
  cases h
  exact Target.withRemoval?_eq_ok_iff.1 htarget

/-- What is selected is what lies between the boundaries, trimmed. What is removed with it
reaches from the separator before it, or else to the blanks behind the separator after it. -/
theorem around?_spec (h : around? t s = .ok (some f)) :
    (f.span.start, f.span.stop) = t.trimmedBounds (((leftBoundary? t s.start).map (· + 1)).getD 0)
      ((rightBoundary? t s.stop).getD t.length) ∧
    ∀ r, f.removal = some r →
      (∃ left, leftBoundary? t s.start = some left ∧ t.nextIs isSeparator left = true ∧
        r.start = left ∧ r.stop = f.span.stop) ∨
      ∃ right, rightBoundary? t s.stop = some right ∧ t.nextIs isSeparator right = true ∧
        r.start = f.span.start ∧ r.stop = right + 1 + t.runAfter isBlank (right + 1) := by
  unfold around? at h
  extract_lets left right separator at h
  by_cases hnone : (left.isNone && right.isNone) = true
  · rw [if_pos hnone] at h
    cases h
  rw [if_neg hnone] at h
  rcases htrim : t.trimmedBounds ((left.map (· + 1)).getD 0) (right.getD t.length) with ⟨start, stop⟩
  simp only [htrim] at h
  obtain ⟨span, hspan, h⟩ := bind_eq_ok.1 h
  obtain ⟨rfl, rfl, -⟩ := Span.ofBounds_eq_ok_iff.1 hspan
  cases hl : separator left with
  | some l =>
    rw [hl] at h
    obtain ⟨removal, hremoval, h⟩ := bind_eq_ok.1 h
    obtain ⟨rfl, rfl⟩ := of_withRemoval? h
    refine ⟨rfl, fun r hr => .inl ?_⟩
    obtain ⟨r', hr', heq⟩ := map_eq_ok.1 (hr ▸ hremoval)
    cases heq
    obtain ⟨h₁, h₂, -⟩ := Span.ofBounds_eq_ok_iff.1 hr'
    obtain ⟨hleft, hsep⟩ := Option.filter_eq_some_iff.1 hl
    exact ⟨l, hleft, hsep, h₁, h₂⟩
  | none =>
    rw [hl] at h
    cases hr' : separator right with
    | some n =>
      rw [hr'] at h
      obtain ⟨removal, hremoval, h⟩ := bind_eq_ok.1 h
      obtain ⟨rfl, rfl⟩ := of_withRemoval? h
      refine ⟨rfl, fun r hr => .inr ?_⟩
      obtain ⟨r', hr'', heq⟩ := map_eq_ok.1 (hr ▸ hremoval)
      cases heq
      obtain ⟨h₁, h₂, -⟩ := Span.ofBounds_eq_ok_iff.1 hr''
      obtain ⟨hright, hsep⟩ := Option.filter_eq_some_iff.1 hr'
      exact ⟨n, hright, hsep, h₁, h₂⟩
    | none =>
      rw [hr'] at h
      obtain ⟨removal, hremoval, h⟩ := bind_eq_ok.1 h
      cases hremoval
      obtain ⟨rfl, hnone⟩ := of_withRemoval? h
      refine ⟨rfl, fun r hr => ?_⟩
      rw [hnone] at hr
      cases hr

/-- The next argument ends behind the separator or parenthesis that comes before it. -/
theorem next_stop (h : next t s = .ok (some f)) : s.stop < f.span.stop := by
  unfold next at h
  cases hb : nextBoundary? t s.stop with
  | none =>
    rw [hb] at h
    cases h
  | some b =>
    rw [hb] at h
    obtain ⟨hle, c, hc, hkind⟩ := nextBoundary?_spec hb
    have hspan := (around?_spec h).1
    rw [Span.start_point, leftBoundary?_succ hc hkind] at hspan
    have hstart := t.le_trimmedBounds (b + 1) ((rightBoundary? t (b + 1)).getD t.length)
    have := f.span.start_le_stop
    simp only [Option.map_some, Option.getD_some, Span.stop_point] at hspan
    rw [← hspan] at hstart
    simp only at hstart
    omega

/-- The previous argument starts before the separator or parenthesis that comes behind it. -/
theorem previous_start (hs : s.start ≤ t.length) (h : previous t s = .ok (some f)) :
    f.span.start < s.start := by
  unfold previous at h
  cases hb : previousBoundary? t s.start with
  | none =>
    rw [hb] at h
    cases h
  | some b =>
    rw [hb] at h
    obtain ⟨hlt, c, hc, hkind⟩ := previousBoundary?_spec hs hb
    have hspan := (around?_spec h).1
    rw [Span.start_point, Span.stop_point, rightBoundary?_self hc hkind] at hspan
    have hleft : ((leftBoundary? t b).map (· + 1)).getD 0 ≤ b := by
      cases hl : leftBoundary? t b with
      | none => exact Nat.zero_le _
      | some l => exact leftBoundary?_lt hl
    have hbounds := Text.trimmedBounds_le (t := t) hleft
    rw [Option.getD_some] at hspan
    rw [← hspan] at hbounds
    omega

end Argument

end VoiceEdit
