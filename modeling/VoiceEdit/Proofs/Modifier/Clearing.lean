import VoiceEdit.Proofs.Modifier.Rest
import VoiceEdit.Proofs.Text.Rows

/-!
# What goes along with what is deleted

Deleting a word, an argument or a sentence removes more than is selected, so that no comma
and no white space is left over: what stands between the target and its neighbours, but
nothing of the neighbours themselves. Only comments and literals, which are deleted with the
markers they lie between, take along anything else.

Results:

* `Target.Clears`: beyond the selection only white space and separators are removed.
* `Token.clears_target`, `Argument.clears_around?`, `Sentence.clears_around`,
  `Line.clears_betweenWhitespace`, `Block.clears_indented?`: one rule for each structure.
* `step_clears`, `steps_clear`: one step, and any number of steps.
* `apply_spares_neighbours`: every modifier but those for comments and literals.
-/
namespace VoiceEdit

/-- What may be left over when its neighbour is deleted: white space, and what stands between
two arguments. -/
def isLeftover (c : Char) : Bool := Unicode.isWhitespace c || isSeparator c

/-- Beyond `s`, the span `r` holds only what would be left over. -/
def Clears (t : Text) (s r : Span) : Prop :=
  ∀ i, r.start ≤ i → i < r.stop → i < s.start ∨ s.stop ≤ i → t.nextIs isLeftover i = true

/-- Deleting the target removes, beyond what it selects, only what would be left over. -/
def Target.Clears (t : Text) (target : Target) : Prop := VoiceEdit.Clears t target.span target.removed

variable {t : Text} {s r : Span} {f : Target} {i j : Nat}

/-! ## Classes -/

theorem isLeftover_of_isWhitespace {c : Char} (h : Unicode.isWhitespace c = true) :
    isLeftover c = true := by simp [isLeftover, h]

theorem isLeftover_of_isSeparator {c : Char} (h : isSeparator c = true) :
    isLeftover c = true := by simp [isLeftover, h]

theorem isLeftover_of_isBlank {c : Char} (h : isBlank c = true) : isLeftover c = true :=
  isLeftover_of_isWhitespace (isWhitespace_of_isBlank h)

theorem isLeftover_of_beq_space {c : Char} (h : (c == ' ') = true) : isLeftover c = true := by
  rw [eq_of_beq h]
  decide

theorem isLeftover_of_beq_newline {c : Char} (h : (c == '\n') = true) : isLeftover c = true := by
  rw [eq_of_beq h]
  decide

/-! ## Removals -/

/-- A removal is looked at on either side of the span. -/
theorem clears_of_sides (hstart : ∀ i, r.start ≤ i → i < s.start → t.nextIs isLeftover i = true)
    (hstop : ∀ i, s.stop ≤ i → i < r.stop → t.nextIs isLeftover i = true) : Clears t s r := by
  intro i hi hlt hout
  rcases hout with hbefore | hbehind
  · exact hstart i hi hbefore
  · exact hstop i hbehind hlt

theorem Target.clears_of_removal (h : ∀ r ∈ f.removal, VoiceEdit.Clears t f.span r) :
    f.Clears t := by
  unfold Target.Clears Target.removed
  cases hr : f.removal with
  | none =>
    -- Nothing lies in the span and outside it.
    intro i hi hlt hout
    simp only [Option.getD_none] at hi hlt
    omega
  | some r => exact h r hr

theorem Target.clears_of_removal_eq_none (h : f.removal = none) : f.Clears t := by
  refine Target.clears_of_removal fun r hr => ?_
  rw [h] at hr
  cases hr

theorem Target.clears_of_withRemoval? {o : Option Span} (h : Target.withRemoval? s o = .ok f)
    (ho : ∀ r ∈ o, VoiceEdit.Clears t s r) : f.Clears t := by
  obtain ⟨rfl, rfl⟩ := Target.withRemoval?_eq_ok_iff.1 h
  exact Target.clears_of_removal ho

/-! ## Tokens -/

namespace Token

theorem clears_removal? (h : removal? t s = some r) : Clears t s r := by
  rcases removal?_cases h with ⟨hstart, -, hchars⟩ | ⟨hstart, hstop, hspace⟩
  · refine clears_of_sides (fun i hi hlt => by omega) fun i hi hlt => ?_
    rcases hchars i hi hlt with hcomma | hspace
    · exact Text.nextIs_iff.2 ⟨',', hcomma, by decide⟩
    · exact Text.nextIs_iff.2 ⟨' ', hspace, by decide⟩
  · refine clears_of_sides (fun i hi hlt => ?_) fun i hi hlt => by omega
    rw [show i = s.start - 1 by omega]
    exact Text.nextIs_mono (fun _ => isLeftover_of_beq_space) (Text.prevIs_iff.1 hspace).2

theorem clears_target (h : target t s = .ok f) : f.Clears t :=
  Target.clears_of_withRemoval? h fun _ => clears_removal?

theorem clears_tokens {start stop : Nat}
    (h : (do return some (← target t (← bounds t start stop))) = Except.ok (ε := Span.Error) (some f)) :
    f.Clears t := by
  obtain ⟨token, -, h⟩ := bind_eq_ok.1 h
  obtain ⟨found, hfound, h⟩ := bind_eq_ok.1 h
  cases h
  exact clears_target hfound

theorem clears_next (h : next t s = .ok (some f)) : f.Clears t := by
  obtain ⟨pos, -, -, h⟩ := exists_of_next h
  exact clears_tokens h

theorem clears_previous (hs : s.start ≤ t.length) (h : previous t s = .ok (some f)) :
    f.Clears t := by
  obtain ⟨pos, -, -, h⟩ := exists_of_previous hs h
  exact clears_tokens h

end Token

theorem Search.clears_find {method : SearchMethod} {proximity : Proximity} {query : Text}
    {lookup : SpellingLookup} (h : find t method proximity query lookup s = .ok (some f)) :
    f.Clears t := by
  obtain ⟨p, cs, c, -, -, -, h⟩ := exists_choice_of_find h
  exact Token.clears_tokens h

/-! ## Arguments -/

namespace Argument

/-- The white space that is trimmed off an argument, up to its boundaries, is left over. -/
theorem isLeftover_between (h : around? t s = .ok (some f)) :
    (∀ i, ((leftBoundary? t s.start).map (· + 1)).getD 0 ≤ i → i < f.span.start →
      t.nextIs isLeftover i = true) ∧
    ∀ i, f.span.stop ≤ i → i < (rightBoundary? t s.stop).getD t.length →
      t.nextIs isLeftover i = true := by
  have hspan := (around?_spec h).1
  have hlast : (rightBoundary? t s.stop).getD t.length ≤ t.length := by
    cases hr : rightBoundary? t s.stop with
    | none => exact Nat.le_refl _
    | some n => exact Nat.le_of_lt (rightBoundary?_bounds hr).2
  refine ⟨fun i hi hlt => ?_, fun i hi hlt => ?_⟩
  · refine Text.nextIs_mono (fun _ => isLeftover_of_isWhitespace) ?_
    exact Text.isWhitespace_of_lt_trimmedBounds hi (by rw [← hspan]; exact hlt)
  · refine Text.nextIs_mono (fun _ => isLeftover_of_isWhitespace) ?_
    exact Text.isWhitespace_of_trimmedBounds_le hlast (by rw [← hspan]; exact hi) hlt

theorem clears_around? (h : around? t s = .ok (some f)) : f.Clears t := by
  obtain ⟨hbefore, hbehind⟩ := isLeftover_between h
  refine Target.clears_of_removal fun r hr => ?_
  rcases (around?_spec h).2 r hr with ⟨left, hleft, hsep, h₁, h₂⟩ | ⟨right, hright, hsep, h₁, h₂⟩
  · rw [hleft, Option.map_some, Option.getD_some] at hbefore
    refine clears_of_sides (fun i hi hlt => ?_) fun i hi hlt => by omega
    by_cases hfirst : i = left
    · rw [hfirst]
      exact Text.nextIs_mono (fun _ => isLeftover_of_isSeparator) hsep
    · exact hbefore i (by omega) hlt
  · rw [hright, Option.getD_some] at hbehind
    refine clears_of_sides (fun i hi hlt => by omega) fun i hi hlt => ?_
    by_cases hspace : i < right
    · exact hbehind i hi hspace
    · by_cases hlast : i = right
      · rw [hlast]
        exact Text.nextIs_mono (fun _ => isLeftover_of_isSeparator) hsep
      · have hblank : t.nextIs isBlank i = true :=
          Text.nextIs_of_lt_add_runAfter (i := right + 1) (by omega) (by omega)
        exact Text.nextIs_mono (fun _ => isLeftover_of_isBlank) hblank

theorem clears_atAnchor? {anchor : Option Nat} (h : atAnchor? t anchor = .ok (some f)) :
    f.Clears t := by
  cases anchor with
  | none => cases h
  | some anchor => exact clears_around? h

end Argument

/-! ## Sentences and lines -/

namespace Sentence

variable {k : SentenceKind}

theorem clears_removal? {o : Option Span} (hs : s.start ≤ t.length) (h : removal? t s = .ok o) :
    ∀ r ∈ o, Clears t s r := by
  intro r hr
  cases hr
  unfold removal? at h
  extract_lets trailing leading at h
  by_cases hbehind : 0 < trailing
  · rw [if_pos hbehind] at h
    obtain ⟨r', hr', heq⟩ := map_eq_ok.1 h
    cases heq
    obtain ⟨h₁, h₂, -⟩ := Span.ofBounds_eq_ok_iff.1 hr'
    refine clears_of_sides (fun i hi hlt => by omega) fun i hi hlt => ?_
    exact Text.nextIs_mono (fun _ => isLeftover_of_beq_space)
      (Text.nextIs_of_lt_add_runAfter (i := s.stop) hi (by omega))
  · rw [if_neg hbehind] at h
    by_cases hbefore : 0 < leading
    · rw [if_pos hbefore] at h
      obtain ⟨r', hr', heq⟩ := map_eq_ok.1 h
      cases heq
      obtain ⟨h₁, h₂, -⟩ := Span.ofBounds_eq_ok_iff.1 hr'
      refine clears_of_sides (fun i hi hlt => ?_) fun i hi hlt => by omega
      exact Text.nextIs_mono (fun _ => isLeftover_of_beq_space)
        (Text.nextIs_of_sub_runBefore_le hs (by omega) hlt)
    · rw [if_neg hbefore] at h
      cases h

theorem clears_around (hs : s.stop ≤ t.length) (h : around k t s = .ok f) : f.Clears t := by
  have hle := s.start_le_stop
  have hlen : f.span.start ≤ t.length := by
    rw [(around_span h).1]
    exact startAt_le_length k t (by omega)
  exact Target.clears_of_removal (clears_removal? hlen (around_removal h))

theorem clears_next? (h : next? k t s = .ok (some f)) : f.Clears t := by
  obtain ⟨pos, -, hlen, -, h⟩ := exists_of_next? h
  exact clears_around (Nat.le_of_lt hlen) h

theorem clears_previous? (hs : s.start ≤ t.length) (h : previous? k t s = .ok (some f)) :
    f.Clears t := by
  obtain ⟨pos, -, hlen, -, h⟩ := exists_of_previous? hs h
  exact clears_around (Nat.le_of_lt hlen) h

end Sentence

theorem Line.clears_betweenWhitespace (hs : s.stop ≤ t.length)
    (h : betweenWhitespace t s = .ok f) : f.Clears t := by
  have hle := s.start_le_stop
  obtain ⟨hstart, -, r, hr, hsides⟩ := exists_of_betweenWhitespace h
  refine Target.clears_of_removal fun _ hr' => ?_
  rw [hr] at hr'
  cases hr'
  have blank {i : Nat} (h : t.nextIs isBlank i = true) : t.nextIs isLeftover i = true :=
    Text.nextIs_mono (fun _ => isLeftover_of_isBlank) h
  rcases hsides with ⟨h₁, h₂⟩ | ⟨h₁, h₂⟩
  · refine clears_of_sides (fun i hi hlt => by omega) fun i hi hlt => blank ?_
    exact Text.nextIs_of_lt_add_runAfter hi (by omega)
  · refine clears_of_sides (fun i hi hlt => blank ?_) fun i hi hlt => by omega
    exact Text.nextIs_of_sub_runBefore_le (by omega) (by omega) hlt

/-! ## Indented blocks -/

/-- An indented block is removed with the indentation of its first line and the newline of
its last. -/
theorem Block.clears_indented? (h : indented? t s = .ok (some f)) : f.Clears t := by
  unfold indented? at h
  extract_lets indents indentOf at h
  split at h
  · cases h
  rename_i anchor hanchor
  extract_lets level first last start stop at h
  obtain ⟨span, hspan, h⟩ := bind_eq_ok.1 h
  obtain ⟨hstart, hstop, -⟩ := Span.ofBounds_eq_ok_iff.1 hspan
  obtain ⟨r, hr, h⟩ := bind_eq_ok.1 h
  obtain ⟨h₁, h₂, -⟩ := Span.ofBounds_eq_ok_iff.1 hr
  obtain ⟨target, htarget, h⟩ := bind_eq_ok.1 h
  cases h
  refine Target.clears_of_withRemoval? (o := some r) htarget fun _ hr => ?_
  cases hr
  refine clears_of_sides (fun i hi hlt => ?_) fun i hi hlt => ?_
  · have hindented : i < start + indentOf first := by omega
    cases hfirst : indents[first]?.join with
    | none =>
      simp only [indentOf, hfirst, Option.getD_none] at hindented
      omega
    | some k =>
      simp only [indentOf, hfirst, Option.getD_some] at hindented
      obtain ⟨-, hblank, -⟩ := (Text.indentation_eq_some_iff rfl).1 (indentation_eq_some rfl hfirst)
      exact Text.nextIs_mono (fun _ => isLeftover_of_isWhitespace) (hblank i hindented (by omega))
  · -- Only the newline behind the last line goes along.
    have hend := Text.not_nextIs_lineEnd (t := t) (Text.startOfLine_le last)
    have hnewline : t.nextIs (· != '\n') stop = !t.nextIs (· == '\n') stop :=
      Text.nextIs_not (by omega)
    rw [hnewline, Bool.not_eq_false'] at hend
    rw [show i = stop by omega]
    exact Text.nextIs_mono (fun _ => isLeftover_of_beq_newline) hend

/-! ## Modifiers -/

namespace Modifier

/-- The kinds of structures that lie between markers of their own, which are deleted with
them. -/
def Kind.hasMarkers : Kind → Bool
  | .comment _ | .literal _ => true
  | _ => false

variable {m : Modifier} {env : Setting} {target found : Target}

theorem clears_of_selectSpan {o : Except Span.Error (Option Span)}
    (h : selectSpan o = .ok (some found)) : found.Clears t := by
  obtain ⟨span, -, rfl⟩ := exists_of_selectSpan h
  exact Target.clears_of_removal_eq_none rfl

theorem find_clears (hk : m.kind.hasMarkers = false) (hs : s.stop ≤ t.length)
    (h : m.find env t s = .ok (some found)) : found.Clears t := by
  have hle := s.start_le_stop
  unfold find at h
  generalize m.kind = kind at hk h
  cases kind with
  | token d =>
    cases d with
    | next => exact Token.clears_next h
    | previous => exact Token.clears_previous (by omega) h
  | search method proximity => exact Search.clears_find h
  | comment | literal => cases hk
  | argument o =>
    cases o with
    | here => exact Argument.clears_around? h
    | first | next | previous => exact Argument.clears_atAnchor? h
  | indentedBlock => exact Block.clears_indented? h
  | sentence k step =>
    cases step with
    | here =>
      obtain ⟨f, hf, heq⟩ := map_eq_ok.1 h
      cases heq
      exact Sentence.clears_around hs hf
    | next => exact Sentence.clears_next? h
    | previous => exact Sentence.clears_previous? (by omega) h
  | betweenWhitespace =>
    obtain ⟨f, hf, heq⟩ := map_eq_ok.1 h
    cases heq
    exact Line.clears_betweenWhitespace hs hf
  -- The rest select a span and remove just that.
  | call o | brackets o => cases o <;> exact clears_of_selectSpan h
  | bracedBlock | link | sectionEnd | line | lineStart | lineEnd => exact clears_of_selectSpan h

theorem step_clears (hk : m.kind.hasMarkers = false) (ht : target.Within t)
    (hclears : target.Clears t) (h : m.step env t target = .ok found) : found.Clears t := by
  rcases step_eq_ok_iff.1 h with hfind | ⟨-, -, rfl⟩
  · exact find_clears hk ht.span_stop_le hfind
  · exact hclears

/-- Every repetition starts from a target that clears, or keeps it. -/
theorem steps_clear {n : Nat} (hk : m.kind.hasMarkers = false) (ht : target.Within t)
    (hclears : target.Clears t) (h : m.steps env t n target = .ok found) : found.Clears t := by
  induction n generalizing target with
  | zero =>
    cases h
    exact hclears
  | succ n ih =>
    rw [steps_succ] at h
    obtain ⟨next, hstep, h⟩ := bind_eq_ok.1 h
    obtain ⟨_, hcheck, h⟩ := bind_eq_ok.1 h
    exact ih (checkWithin_eq_ok_iff.1 hcheck) (step_clears hk ht hclears hstep) h

theorem apply_clears (hk : m.kind.hasMarkers = false) (hclears : target.Clears t)
    (h : m.apply env t target = .ok found) : found.Clears t := by
  obtain ⟨ht, h⟩ := (apply_eq_ok_iff (repetitions_ne_zero h)).1 h
  by_cases hempty : t = []
  · rw [if_pos hempty] at h
    exact h ▸ hclears
  · rw [if_neg hempty] at h
    exact steps_clear hk ht hclears h

/-- **Deleting spares the neighbours.** Whatever a modifier answers, other than a comment or
a literal, for a target without a removal: every character that is deleted with it but not
selected is white space, a comma or a semicolon. -/
theorem apply_spares_neighbours (hk : m.kind.hasMarkers = false) (hnone : target.removal = none)
    (h : m.apply env t target = .ok found) (i : Nat) (hstart : found.removed.start ≤ i)
    (hstop : i < found.removed.stop) (hout : i < found.span.start ∨ found.span.stop ≤ i) :
    ∃ c, t[i]? = some c ∧ (Unicode.isWhitespace c = true ∨ c = ',' ∨ c = ';') := by
  have hclears := apply_clears hk (Target.clears_of_removal_eq_none hnone) h
  obtain ⟨c, hc, hleft⟩ := Text.nextIs_iff.1 (hclears i hstart hstop hout)
  refine ⟨c, hc, ?_⟩
  simpa only [isLeftover, isSeparator, Bool.or_eq_true, beq_iff_eq] using hleft

/-- The next argument, with which the semicolon and the space before it go. -/
theorem apply_spares_neighbours_argument :
    let m : Modifier := { kind := .argument .next }
    let env : Setting := ⟨Settings.default, .none⟩
    let t : Text := ['f', '(', 'a', ';', ' ', 'b', ')']
    let target : Target := .ofSpan (.point 2)
    let found : Target :=
      ⟨⟨5, 6, by decide, by decide⟩, some ⟨3, 6, by decide, by decide⟩, by decide⟩
    m.kind.hasMarkers = false ∧ target.removal = none ∧ m.apply env t target = .ok found ∧
      ∀ i, found.removed.start ≤ i → i < found.removed.stop →
        i < found.span.start ∨ found.span.stop ≤ i →
        ∃ c, t[i]? = some c ∧ (Unicode.isWhitespace c = true ∨ c = ',' ∨ c = ';') := by
  intro m env t target found
  have hk : m.kind.hasMarkers = false := by rfl
  have hnone : target.removal = none := by rfl
  have happly : m.apply env t target = .ok found := by rfl
  exact ⟨hk, hnone, happly, apply_spares_neighbours hk hnone happly⟩

end Modifier

end VoiceEdit
