import Mathlib.Data.List.Permutation
import VoiceEdit.Proofs.Code.Marked
import VoiceEdit.Proofs.Modifier.Answers
import VoiceEdit.Proofs.Modifier.Bounds

/-!
# The comment of a line

The marker of a line comment is the first on its line that may begin one and does not lie in a
block comment. From every place behind it the modifier for comments answers the comment it begins,
if it is the first marker of the line. Behind a marker that lies in a block comment the line
comment is not found.

Results:

* `apply_comment_on_line`: where the comment of a line is answered, and where it never is.
* `apply_comment_hidden`: a comment behind a marker in a block comment.
-/
namespace VoiceEdit.Modifier

open Comment (Begins InBlock Opens)
open Text (IsLine OnlyNewlines)

variable {m : Modifier} {t marker : Text} {target found : Target} {n k w start stop : Nat}

/-- The target selects what stands behind the marker of `w` characters at `k`, trimmed, and takes
everything from the blanks before the marker to the end of the line when it is deleted. -/
structure LineComment (t : Text) (k w stop : Nat) (f : Target) : Prop where
  body : Text.Trims t (k + w) stop f.span.start f.span.stop
  start_eq : f.removed.start = k - t.runBefore isBlank k
  stop_eq : f.removed.stop = stop

theorem find_comment {env : Setting} (hkind : m.kind = .comment .here) (s : Span) :
    m.find env t s = Comment.around? t env.settings s >>= targetOf Comment.target := by
  simp only [find, hkind]

/-- What is selected as a comment is its body, and what is removed is all of it. -/
theorem exists_of_targetOf_comment {c : Comment} {r : Option Target}
    (h : targetOf Comment.target (some c) = .ok r) :
    ∃ f, r = some f ∧ f.span = c.body ∧ f.removed = c.span := by
  obtain ⟨f, hf, heq⟩ := map_eq_ok.1 h
  exact ⟨f, heq.symm, Comment.of_target hf⟩

/-- **The comment of a line.** On a line without quotes let `marker`, at `k`, be the first that may
begin a comment and does not lie in a block comment. If no other marker stands before it on the
line, the modifier for comments answers the comment it begins from every place behind it, up to the
end of the line. If another does, which then lies in a block comment, it never answers that. -/
theorem apply_comment_on_line (lookup : SpellingLookup) (hkind : m.kind = .comment .here)
    (hrep : m.repetitions = 1) (hbreaks : OnlyNewlines t) (ht : target.removed.stop ≤ t.length)
    (hline : IsLine t n start stop) (hquote : ∀ i < stop, start ≤ i → t[i]? ≠ some '"')
    (hopens : Opens t start stop k marker) (hlt : k < target.span.start)
    (hle : target.span.start ≤ stop) :
    ((∀ i < k, start ≤ i → ∀ m', ¬Begins Settings.default t i m') →
      Answers t (m.apply ⟨Settings.default, lookup⟩ t target) (LineComment t k marker.length stop)) ∧
    ∀ i < k, start ≤ i → ∀ m', Begins Settings.default t i m' → ∀ found,
      m.apply ⟨Settings.default, lookup⟩ t target = .ok found →
        found = target ∨ ¬LineComment t k marker.length stop found := by
  have hlen : 0 < t.length := by
    have := hline.stop_le
    omega
  refine ⟨fun hfirst => ?_, fun i hi hsi m' hbegins found h => ?_⟩
  · refine apply_answers_of_find hrep (List.ne_nil_of_length_pos hlen) ht
      (fun hlimit => finds_find hlimit Settings.oneLine_default (Target.Within.span_stop_le ht)) fun r hr => ?_
    rw [find_comment hkind] at hr
    obtain ⟨o, ho, hr⟩ := bind_eq_ok.1 hr
    obtain ⟨c, rfl, htrims, hstart, hstop⟩ :=
      Comment.around?_of_first hbreaks hline hquote hopens hfirst hlt hle ho
    obtain ⟨f, rfl, hspan, hremoved⟩ := exists_of_targetOf_comment hr
    exact ⟨f, rfl, by rwa [hspan], by rwa [hremoved], by rwa [hremoved]⟩
  · rcases find_of_apply hrep h with hfind | ⟨-, rfl⟩
    · refine .inr fun hcomment => ?_
      rw [find_comment hkind] at hfind
      obtain ⟨o, ho, hfind⟩ := bind_eq_ok.1 hfind
      cases o with
      | none => cases hfind
      | some c =>
        obtain ⟨f, hf, -, hremoved⟩ := exists_of_targetOf_comment hfind
        cases hf
        obtain ⟨cs, hcs, hc⟩ := Comment.exists_all_of_around? ho
        have hstart := hcomment.start_eq
        have hstop := hcomment.stop_eq
        rw [hremoved] at hstart hstop
        exact Comment.not_mem_all_of_hidden hbreaks hline hquote hopens hi hsi hbegins hcs hc hstart hstop
    · exact .inl rfl

/-- In `/*a*/ # b` the comment is found from its last character, behind a block comment. -/
theorem apply_comment_on_line_behind :
    let m : Modifier := { kind := .comment .here }
    let t : Text := ['/', '*', 'a', '*', '/', ' ', '#', ' ', 'b']
    let target : Target := .ofSpan (.point 8)
    m.kind = .comment .here ∧ m.repetitions = 1 ∧ OnlyNewlines t ∧ target.removed.stop ≤ t.length ∧
      IsLine t 0 0 9 ∧ InBlock Settings.default t 2 ∧
      (∀ i < 9, 0 ≤ i → t[i]? ≠ some '"') ∧ Opens t 0 9 6 ['#'] ∧
      6 < target.span.start ∧ target.span.start ≤ 9 ∧
      (∀ i < 6, 0 ≤ i → ∀ m', ¬Begins Settings.default t i m') ∧
      ∃ found, m.apply ⟨Settings.default, .none⟩ t target = .ok found ∧ LineComment t 6 1 9 found := by
  intro m t target
  have hbreaks : OnlyNewlines t := by decide
  have hline : IsLine t 0 0 9 := by decide
  have hquote : ∀ i < 9, 0 ≤ i → t[i]? ≠ some '"' := by decide
  have hnone : ∀ i < 6, ∀ m' ∈ Settings.default.lineMarkers, ¬Begins Settings.default t i m' := by
    decide
  have hfirst (i : Nat) (hi : i < 6) (_ : 0 ≤ i) (m' : Text) : ¬Begins Settings.default t i m' :=
    fun h => hnone i hi m' h.mem h
  have hopens : Opens t 0 9 6 ['#'] :=
    ⟨by decide, by decide, by decide, by decide, fun i hi h0 m' h => absurd h (hfirst i hi h0 m')⟩
  have ht : target.removed.stop ≤ t.length := by decide
  have hanswers := (apply_comment_on_line (m := m) .none rfl rfl hbreaks ht hline hquote hopens
    (by decide) (by decide)).1 hfirst
  refine ⟨rfl, rfl, hbreaks, ht, hline, by decide, hquote, hopens, by decide, by decide, hfirst, ?_⟩
  rcases hanswers with hfound | ⟨hlong, -⟩
  · exact hfound
  · exact absurd hlong (by decide)

/-- Behind `/* # */` the comment of the line is not found, and the block comment is. -/
theorem apply_comment_hidden :
    let t : Text := ['/', '*', ' ', '#', ' ', '*', '/', ' ', '#', ' ', 'x']
    OnlyNewlines t ∧ IsLine t 0 0 11 ∧ (∀ i < 11, t[i]? ≠ some '"') ∧ Opens t 0 11 8 ['#'] ∧
      ∃ found, apply { kind := .comment .here } ⟨Settings.default, .none⟩ t (.ofSpan (.point 10)) =
          .ok found ∧
        found.span.start = 3 ∧ found.span.stop = 4 ∧ ¬LineComment t 8 1 11 found := by
  intro t
  have hhidden : ∀ i < 8, ∀ m' ∈ Settings.default.lineMarkers,
      Begins Settings.default t i m' → InBlock Settings.default t i := by decide
  have hopens : Opens t 0 11 8 ['#'] :=
    ⟨by decide, by decide, by decide, by decide, fun i hi _ m' h => hhidden i hi m' h.mem h⟩
  have hrun : apply { kind := .comment .here } ⟨Settings.default, .none⟩
      ['/', '*', ' ', '#', ' ', '*', '/', ' ', '#', ' ', 'x'] (.ofSpan (.point 10)) =
      .ok ⟨⟨3, 4, by decide, by decide⟩, some ⟨0, 7, by decide, by decide⟩, by decide⟩ := by cbv
  refine ⟨by decide, by decide, by decide, hopens, _, hrun, rfl, rfl, fun h => ?_⟩
  exact absurd h.stop_eq (by decide)

end VoiceEdit.Modifier
