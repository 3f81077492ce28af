import VoiceEdit.Code.Comment
import VoiceEdit.Code.Literal
import VoiceEdit.Proofs.Text.Lines
import VoiceEdit.Proofs.Yields

/-!
# Comments and literals lie in the text

What is read between delimiters lies between them, and the delimiters lie in the text.

Results:

* `Literal.around?_within`, `Literal.mem_all_within`: both readings of string literals.
* `Literal.pick_checked`, `Literal.yields_checked`: every literal that is read has its spans.
* `Comment.of_ofParts`: what a comment is made of.
* `Comment.yields_blocks`: every block comment is read, and lies in the text.
-/
namespace VoiceEdit

variable {t : Text} {s : Span}

/-! ## Literals -/

namespace Literal

variable {q : Char} {l : Literal}

/-- The delimiters do not overlap and lie in the text. -/
def Within (l : Literal) (t : Text) : Prop :=
  l.start + l.width ≤ l.stop - l.width ∧ l.stop ≤ t.length

/-- What a target is made of: the span of the literal, and that of its contents. -/
theorem target_eq_ok {f : Target} : l.target = .ok f ↔ ∃ outer inner,
    Span.ofBounds l.start l.stop = .ok outer ∧
    Span.ofBounds (l.start + l.width) (l.stop - l.width) = .ok inner ∧
    Target.withRemoval inner outer = .ok f := by
  constructor
  · intro h
    obtain ⟨_, hspans, h⟩ := bind_eq_ok.1 h
    obtain ⟨outer, houter, hspans⟩ := bind_eq_ok.1 hspans
    obtain ⟨inner, hinner, hspans⟩ := bind_eq_ok.1 hspans
    cases hspans
    exact ⟨outer, inner, houter, hinner, h⟩
  · rintro ⟨outer, inner, houter, hinner, h⟩
    exact bind_eq_ok.2 ⟨_, bind_eq_ok.2 ⟨outer, houter, bind_eq_ok.2 ⟨inner, hinner, rfl⟩⟩, h⟩

theorem yields_spans (ht : t.length ≤ Span.limit) (h : l.Within t) : Yields l.spans fun spans =>
    spans.1.start ≤ spans.2.start ∧ spans.2.stop ≤ spans.1.stop ∧ spans.1.stop ≤ t.length := by
  obtain ⟨hwidth, hstop⟩ := h
  refine (yields_ofBounds (by omega) (by omega)).bind fun outer houter => ?_
  refine (yields_ofBounds hwidth (by omega)).bind fun inner hinner => .pure ?_
  show outer.start ≤ inner.start ∧ inner.stop ≤ outer.stop ∧ outer.stop ≤ t.length
  omega

theorem yields_target (ht : t.length ≤ Span.limit) (h : l.Within t) :
    Yields l.target (·.Within t) :=
  (yields_spans ht h).bind fun _ hspans => yields_withRemoval hspans.1 hspans.2.1 hspans.2.2

theorem lastDelimiter?_lt {cs : List Char} {n : Nat} (h : lastDelimiter? q cs = some n) :
    n < cs.length := by
  induction cs with
  | nil => cases h
  | cons c rest ih =>
    rw [lastDelimiter?] at h
    by_cases hd : delimits q 1 rest.head? [c] = true
    · rw [if_pos hd] at h
      cases h
      exact Nat.lt_succ_self _
    · rw [if_neg hd] at h
      exact Nat.lt_succ_of_lt (ih h)

/-- The literal around a span lies in the text. -/
theorem around?_within (hs : s.stop ≤ t.length) (h : around? t q s = some l) : l.Within t := by
  obtain ⟨left, hleft, h⟩ := Option.bind_eq_some_iff.1 h
  obtain ⟨right, hright, h⟩ := Option.bind_eq_some_iff.1 h
  cases h
  have hl := lastDelimiter?_lt hleft
  obtain ⟨h₁, h₂⟩ := closeFrom?_bounds hright
  rw [t.length_before] at hl
  rw [t.length_after] at h₂
  have hle := s.start_le_stop
  simp only [Within]
  omega

theorem mem_all_within (h : l ∈ all t q) : l.Within t := by
  obtain ⟨-, -, hwidth, -, hstop⟩ := mem_literalsFrom_bounds h
  exact ⟨hwidth, by omega⟩

/-- What is checked is what is read, so what is picked from it is picked from all literals. -/
theorem pick_checked {α : Type} {pick : List Literal → α} {a : α}
    (h : (do return pick (← checked t q)) = Except.ok a) : a = pick (all t q) := by
  obtain ⟨ls, hls, h⟩ := bind_eq_ok.1 h
  obtain ⟨_, -, hls⟩ := bind_eq_ok.1 hls
  cases hls
  cases h
  rfl

theorem yields_checked (ht : t.length ≤ Span.limit) : Yields (checked t q) (· = all t q) :=
  (yields_mapM fun _ hl => yields_spans ht (mem_all_within hl)).bind fun _ _ => .pure rfl

end Literal

/-! ## Comments -/

/-- No line marker goes on across the end of a line. -/
def Settings.OneLine (settings : Settings) : Prop := ∀ m ∈ settings.lineMarkers, '\n' ∉ m

theorem Settings.oneLine_default : Settings.default.OneLine := by
  unfold OneLine
  decide

namespace Comment

variable {c : Comment}

/-- The comment holds its body and lies in the text. -/
def Within (c : Comment) (t : Text) : Prop :=
  c.span.start ≤ c.body.start ∧ c.body.stop ≤ c.span.stop ∧ c.span.stop ≤ t.length

theorem yields_target (h : c.Within t) : Yields c.target (·.Within t) :=
  yields_withRemoval h.1 h.2.1 h.2.2

/-- What is selected of a comment is its body, and what is removed is all of it. -/
theorem of_target {f : Target} (h : c.target = .ok f) : f.span = c.body ∧ f.removed = c.span := by
  obtain ⟨hspan, hremoval⟩ := Target.withRemoval_eq_ok_iff.1 h
  exact ⟨hspan, by rw [Target.removed, hremoval, Option.getD_some]⟩

/-- What a comment is made of: the trimmed part for its body, and all that goes from the blanks
before its marker to its end. -/
theorem of_ofParts {marker start stop last : Nat} (h : ofParts t marker start stop last = .ok c) :
    (c.body.start, c.body.stop) = t.trimmedBounds start stop ∧
      c.span.start = marker - t.runBefore isBlank marker ∧ c.span.stop = last := by
  obtain ⟨body, hbody, h⟩ := bind_eq_ok.1 h
  obtain ⟨span, hspan, h⟩ := bind_eq_ok.1 h
  cases h
  obtain ⟨hspan₁, hspan₂, -⟩ := Span.ofBounds_eq_ok_iff.1 hspan
  obtain ⟨hbody₁, hbody₂, -⟩ := Span.ofBounds_eq_ok_iff.1 hbody
  exact ⟨Prod.ext hbody₁ hbody₂, hspan₁, hspan₂⟩

/-- The parts of a comment in their order make a comment. -/
theorem yields_ofParts {marker start stop last : Nat} (ht : t.length ≤ Span.limit)
    (h₁ : marker ≤ start) (h₂ : start ≤ stop) (h₃ : stop ≤ last) (h₄ : last ≤ t.length) :
    Yields (ofParts t marker start stop last) (·.Within t) := by
  obtain ⟨hfirst, hbody, hstop⟩ := Text.trimmedBounds_le (t := t) h₂
  have hmarker : marker - t.runBefore isBlank marker ≤ marker := Nat.sub_le _ _
  refine (yields_ofBounds hbody (by omega)).bind fun body hb => ?_
  refine (yields_ofBounds (by omega) (by omega)).bind fun span hs => .pure ?_
  simp only [Within]
  omega

/-- A block comment is read from marker to marker, in what is still to be read. -/
theorem mem_blocksFrom_bounds {m : BlockMarker} {skip pos : Nat} {cs : List Char} {o : Nat × Nat}
    (h : o ∈ blocksFrom m skip pos cs) :
    pos + skip ≤ o.1 ∧ o.1 + m.start.length ≤ o.2 ∧ o.2 + m.stop.length ≤ pos + cs.length := by
  induction cs generalizing skip pos with
  | nil => cases h
  | cons c rest ih =>
    rw [List.length_cons]
    cases skip with
    | succ skip =>
      have := ih h
      omega
    | zero =>
      rw [blocksFrom] at h
      by_cases hm : m.start.isPrefixOf (c :: rest) = true
      · rw [if_pos hm] at h
        have hlen := (List.isPrefixOf_iff_prefix.1 hm).length_le
        cases hclose : findFrom? m.stop (pos + m.start.length) ((c :: rest).drop m.start.length) with
        | none => rw [hclose] at h; cases h
        | some close =>
          rw [hclose] at h
          obtain ⟨h₁, h₂⟩ := findFrom?_bounds hclose
          rw [List.length_drop] at h₂
          rw [List.length_cons] at hlen h₂
          rcases List.mem_cons.1 h with rfl | hmem
          · exact ⟨Nat.le_refl _, h₁, by omega⟩
          · have := ih hmem
            omega
      · rw [if_neg hm] at h
        have := ih h
        omega

theorem yields_blocksOf (ht : t.length ≤ Span.limit) (m : BlockMarker) :
    Yields (blocksOf t m) fun cs => ∀ c ∈ cs, c.Within t := by
  unfold blocksOf
  by_cases hempty : (m.start.isEmpty || m.stop.isEmpty) = true
  · rw [if_pos hempty]
    exact .pure fun c hc => by cases hc
  · rw [if_neg hempty]
    refine yields_mapM fun o ho => ?_
    obtain ⟨-, h₁, h₂⟩ := mem_blocksFrom_bounds ho
    exact yields_ofParts ht (Nat.le_add_right _ _) h₁ (Nat.le_add_right _ _) (by omega)

theorem yields_blocks (ht : t.length ≤ Span.limit) (settings : Settings) :
    Yields (blocks t settings) fun cs => ∀ c ∈ cs, c.Within t := by
  refine (yields_mapM fun m _ => yields_blocksOf ht m).bind fun found hfound => .pure ?_
  intro c hc
  obtain ⟨cs, hcs, hmem⟩ := List.mem_flatten.1 hc
  exact hfound cs hcs c hmem

end Comment

end VoiceEdit
