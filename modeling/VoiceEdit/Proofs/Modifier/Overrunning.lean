import Mathlib.Data.List.Permutation
import VoiceEdit.Proofs.Modifier.Bounds

/-!
# Comments by any settings

Whatever marks a comment, the modifiers for comments answer a target in the text, unless the marker of
a line holds a newline: then they fail from every place of the text, also where nothing is to be found.

Results:

* `apply_of_all_eq_error`, `apply_overruns`: the failure.
* `apply_comment_any_settings`: when it is met, and that there is no other.
-/
namespace VoiceEdit.Modifier

open Comment (Overruns)

variable {m : Modifier} {env : Setting} {t : Text} {target : Target} {place : Place}

theorem ne_nil_of_overruns (h : Overruns env.settings t) : t ≠ [] := by
  obtain ⟨n, -, k, hk, -⟩ := h
  exact List.ne_nil_of_length_pos (Nat.zero_lt_of_lt hk)

/-- All comments are read whichever is looked for, so nothing is found where one cannot be. -/
theorem apply_of_all_eq_error {e : Span.Error} (hkind : m.kind = .comment place)
    (hrep : m.repetitions ≠ 0) (hne : t ≠ []) (htarget : target.Within t)
    (h : Comment.all t env.settings = .error e) : m.apply env t target = .error (.span e) := by
  have hstep : m.step env t target = .error (.span e) := by
    unfold step
    rw [find_comments hkind, h]
    rfl
  exact apply_of_step_eq_error hrep hne htarget hstep

theorem apply_overruns (hkind : m.kind = .comment place) (hrep : m.repetitions ≠ 0)
    (ht : t.length ≤ Span.limit) (htarget : target.Within t) (h : Overruns env.settings t) :
    ∃ i j, j < i ∧ m.apply env t target = .error (.span (.invalid i j)) := by
  obtain ⟨i, j, hij, hall⟩ := Comment.all_overruns ht h
  exact ⟨i, j, hij, apply_of_all_eq_error hkind hrep (ne_nil_of_overruns h) htarget hall⟩

/-- **Comments by any settings.** Applied to a target in a text within the limit, a modifier for
comments answers a target in the text, whose removal holds what it selects, unless the marker of some
line overruns that line. Then it refuses the body of that line's comment, which would begin behind the
end of it. No marker does so that holds no newline. -/
theorem apply_comment_any_settings (env : Setting) (hkind : m.kind = .comment place)
    (hrep : m.repetitions ≠ 0) (ht : t.length ≤ Span.limit)
    (htarget : target.removed.stop ≤ t.length) :
    (¬Overruns env.settings t → ∃ found, m.apply env t target = .ok found ∧
      found.removed.contains found.span = true ∧ found.removed.stop ≤ t.length) ∧
    (Overruns env.settings t →
      ∃ i j, j < i ∧ m.apply env t target = .error (.span (.invalid i j))) ∧
    (env.settings.OneLine → ¬Overruns env.settings t) := by
  refine ⟨fun hnot => ?_, apply_overruns hkind hrep ht htarget, Comment.not_overruns⟩
  have hfinds (s : Span) (_ : s.stop ≤ t.length) : Finds t (m.find env t s) :=
    finds_comment hkind ht hnot
  rcases apply_settles hfinds hrep htarget with ⟨found, happly, hfound⟩ | ⟨-, hmust⟩
  · exact ⟨found, happly, found.contains_removed, hfound⟩
  · rw [hkind] at hmust
    cases hmust

/-- A marker with a newline that stands in a block comment overruns no line: from the end of the text
the second comment back is that block. -/
theorem apply_comment_any_settings_blocked :
    let env : Setting := ⟨{ Settings.default with lineMarkers := [['#', '\n'], ['#']] }, .none⟩
    let m : Modifier := { kind := .comment .previous, repetitions := 2 }
    let t : Text := ['/', '*', '#', '\n', '*', '/', ' ', '#', ' ', 'a']
    let target : Target := .ofSpan (.point 10)
    m.kind = .comment .previous ∧ m.repetitions ≠ 0 ∧ t.length ≤ Span.limit ∧
      target.removed.stop ≤ t.length ∧ ¬env.settings.OneLine ∧ ¬Overruns env.settings t ∧
      ∃ found, m.apply env t target = .ok found ∧ found.span.start = 2 ∧ found.span.stop = 3 ∧
        found.removed.contains found.span = true ∧ found.removed.stop ≤ t.length := by
  intro env m t target
  have ht : t.length ≤ Span.limit := by decide
  have htarget : target.removed.stop ≤ t.length := by decide
  have hmarkers : ¬env.settings.OneLine := fun h => h ['#', '\n'] (by decide) (by decide)
  have hnot : ¬Overruns env.settings t := by decide
  have hrun : apply { kind := .comment .previous, repetitions := 2 }
      ⟨{ Settings.default with lineMarkers := [['#', '\n'], ['#']] }, .none⟩
      ['/', '*', '#', '\n', '*', '/', ' ', '#', ' ', 'a'] (.ofSpan (.point 10)) =
      .ok ⟨⟨2, 3, by decide, by decide⟩, some ⟨0, 6, by decide, by decide⟩, by decide⟩ := by cbv
  have hkind : m.kind = .comment .previous := rfl
  obtain ⟨found, happly, hfound⟩ :=
    (apply_comment_any_settings env hkind (by decide) ht htarget).1 hnot
  obtain rfl := Except.ok.inj (hrun.symm.trans happly)
  exact ⟨rfl, by decide, ht, htarget, hmarkers, hnot, _, happly, rfl, rfl, hfound⟩

/-- Where `#` and a newline mark a comment, the text of these two characters has no comment that could
be read: its body would go from 2 to 1. -/
theorem apply_comment_overruns_line :
    let env : Setting := ⟨{ Settings.default with lineMarkers := [['#', '\n']] }, .none⟩
    Overruns env.settings ['#', '\n'] ∧
      apply { kind := .comment .previous } env ['#', '\n'] (.ofSpan (.point 0)) =
        .error (.span (.invalid 2 1)) := by
  intro env
  have hmarkers : env.settings.markersByLength = [['#', '\n']] := List.mergeSort_singleton _
  have hall : Comment.all ['#', '\n'] env.settings = .error (.invalid 2 1) := by
    rw [Comment.all, hmarkers]
    rfl
  exact ⟨by decide, apply_of_all_eq_error rfl (by decide) (List.cons_ne_nil _ _) (Nat.zero_le _) hall⟩

end VoiceEdit.Modifier
