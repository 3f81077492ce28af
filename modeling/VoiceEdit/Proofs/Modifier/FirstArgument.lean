import VoiceEdit.Proofs.Code.Enumeration
import VoiceEdit.Proofs.Modifier.Within

/-!
# The first argument of the next call

In no call, the modifier for the first argument looks for the next one. The scan for it stops
at separators too, where no group is open that it entered, and it is given up where it came
to a separator. So the next call is found if no such separator stands before it, and with one
the target stays as it was.

Results:

* `boundaryOffset_spec`: a step comes to the first separator of its group, or to the call.
* `nextBoundary?_spec_call`, `first_eq`: what stands before the next call.
* `apply_argument_first`: when the first argument of the next call is found.
* `apply_argument_first_misses`: a comma hides the call behind it.
-/
namespace VoiceEdit

namespace Argument

variable {t : Text} {s : Span} {i n o k depth : Nat} {entry c : Char}
  {enter leave : Char → Bool} {left : Bool} {m : List Char}

/-! ## Where a step ends -/

/-- At `k` stands a separator, where every group that the scan entered is left again and none
else is. -/
def Separates (enter leave : Char → Bool) (depth : Nat) (m : List Char) (k : Nat) : Prop :=
  m[k]?.any isSeparator = true ∧ depthAfter enter leave (fun _ => false) depth (m.take k) = some 0

theorem Separates.lt_length (h : Separates enter leave depth m k) : k < m.length := by
  have hsep := h.1
  refine Nat.lt_of_not_le fun hle => ?_
  rw [List.getElem?_eq_none hle] at hsep
  cases hsep

theorem separates_zero :
    Separates enter leave depth (c :: m) 0 ↔ isSeparator c = true ∧ depth = 0 := by
  simp [Separates, depthAfter_nil]

theorem separates_succ : Separates enter leave depth (c :: m) (k + 1) ↔
    ∃ d, depthStep enter leave (fun _ => false) depth c = some d ∧ Separates enter leave d m k := by
  rw [Separates, List.getElem?_cons_succ, List.take_succ_cons, depthAfter_cons,
    Option.bind_eq_some_iff]
  constructor
  · rintro ⟨hsep, d, hstep, hrest⟩
    exact ⟨d, hstep, hsep, hrest⟩
  · rintro ⟨d, hstep, hsep, hrest⟩
    exact ⟨hsep, d, hstep, hrest⟩

/-- A step ends at a separator of its group. -/
theorem boundaryOffset_separator (hc : c ≠ entry) (henter : enter c = false)
    (hleave : leave c = false) (hsep : isSeparator c = true) (rest : List Char) :
    boundaryOffset entry enter leave 0 false (c :: rest) = some 0 := by
  simp [boundaryOffset, hc, henter, hleave, hsep]

/-- A step goes on behind everything else than the call and a separator of its group, as deep
as it is there; if that closes its group, it has left the group for good. -/
theorem boundaryOffset_cons_eq (hc : c ≠ entry)
    (hstop : ¬(left = false ∧ isSeparator c = true ∧ depth = 0)) (rest : List Char) :
    boundaryOffset entry enter leave depth left (c :: rest) =
      ((depthStep enter leave (fun _ => false) depth c).elim
        (boundaryOffset entry enter leave 0 true rest)
        (boundaryOffset entry enter leave · left rest)).map (· + 1) := by
  by_cases henter : enter c = true
  · simp [boundaryOffset, depthStep, hc, henter]
  by_cases hleave : leave c = true
  · cases depth with
    | zero => simp [boundaryOffset, depthStep, hc, henter, hleave]
    | succ depth => simp [boundaryOffset, depthStep, hc, henter, hleave]
  · have hplain : (isSeparator c && depth == 0 && !left) = false := by
      refine eq_false_of_ne_true fun h => hstop ?_
      simpa [and_comm, and_left_comm] using h
    simp [boundaryOffset, depthStep, hc, henter, hleave, hplain]

/-- A step that has not left its group ends at the first separator of it, if one stands before
the next call, and else at the call. -/
theorem boundaryOffset_spec (hsep : ∀ c, isSeparator c = true → enter c = false ∧ leave c = false)
    (hm : ∀ c ∈ m, c ≠ entry) (rest : List Char) (depth : Nat) (left : Bool) :
    ∃ n, boundaryOffset entry enter leave depth left (m ++ entry :: rest) = some n ∧
      (n = m.length ∨ left = false ∧ Separates enter leave depth m n) ∧
      ∀ k, left = false → Separates enter leave depth m k → n ≤ k := by
  induction m generalizing depth left with
  | nil =>
    refine ⟨0, ?_, .inl rfl, fun k _ _ => Nat.zero_le k⟩
    simp [boundaryOffset]
  | cons c m ih =>
    have hc := hm c List.mem_cons_self
    have hm' : ∀ c ∈ m, c ≠ entry := fun c hc => hm c (List.mem_cons_of_mem _ hc)
    by_cases hstop : left = false ∧ isSeparator c = true ∧ depth = 0
    · obtain ⟨rfl, hc', rfl⟩ := hstop
      obtain ⟨henter, hleave⟩ := hsep c hc'
      exact ⟨0, boundaryOffset_separator hc henter hleave hc' _,
        .inr ⟨rfl, separates_zero.2 ⟨hc', rfl⟩⟩, fun k _ _ => Nat.zero_le k⟩
    rw [List.cons_append, boundaryOffset_cons_eq hc hstop]
    have hzero : left = false → ¬Separates enter leave depth (c :: m) 0 :=
      fun hleft h => hstop ⟨hleft, separates_zero.1 h⟩
    cases hstep : depthStep enter leave (fun _ => false) depth c with
    | none =>
      obtain ⟨n, hn, hend, -⟩ := ih hm' 0 true
      refine ⟨n + 1, by rw [Option.elim_none, hn]; rfl, .inl ?_, fun k hleft h => ?_⟩
      · rcases hend with rfl | ⟨hleft, -⟩
        · rfl
        · cases hleft
      · cases k with
        | zero => exact absurd h (hzero hleft)
        | succ k =>
          obtain ⟨d, hd, -⟩ := separates_succ.1 h
          rw [hstep] at hd
          cases hd
    | some d =>
      obtain ⟨n, hn, hend, hleast⟩ := ih hm' d left
      refine ⟨n + 1, by rw [Option.elim_some, hn]; rfl, ?_, fun k hleft h => ?_⟩
      · rcases hend with rfl | ⟨hleft, hs⟩
        · exact .inl rfl
        · exact .inr ⟨hleft, separates_succ.2 ⟨d, hstep, hs⟩⟩
      · cases k with
        | zero => exact absurd h (hzero hleft)
        | succ k =>
          obtain ⟨d', hd, hs⟩ := separates_succ.1 h
          cases hstep.symm.trans hd
          exact Nat.succ_le_succ (hleast k hleft hs)

/-! ## The next call -/

/-- At `k` stands a separator of the group that `i` is in, be it all of the text. -/
structure SeparatedAt (t : Text) (i k : Nat) : Prop where
  le : i ≤ k
  separator : t.nextIs isSeparator k = true
  balanced : Balanced ((t.after i).take (k - i))

/-- `o` is where the next call opens its parenthesis. -/
structure NextOpens (t : Text) (i o : Nat) : Prop where
  le : i ≤ o
  opens : t.nextIs (· == '(') o = true
  least : ∀ k < o, i ≤ k → t.nextIs (· == '(') k = false

instance (t : Text) (i k : Nat) : Decidable (SeparatedAt t i k) :=
  decidable_of_iff (i ≤ k ∧ t.nextIs isSeparator k = true ∧ Balanced ((t.after i).take (k - i)))
    ⟨fun h => ⟨h.1, h.2.1, h.2.2⟩, fun h => ⟨h.le, h.separator, h.balanced⟩⟩

instance (t : Text) (i o : Nat) : Decidable (NextOpens t i o) :=
  decidable_of_iff (i ≤ o ∧ t.nextIs (· == '(') o = true ∧
      ∀ k < o, i ≤ k → t.nextIs (· == '(') k = false)
    ⟨fun h => ⟨h.1, h.2.1, h.2.2⟩, fun h => ⟨h.le, h.opens, h.least⟩⟩

theorem NextOpens.lt_length (h : NextOpens t i o) : o < t.length := Text.lt_length_of_nextIs h.opens

theorem NextOpens.after_eq (h : NextOpens t i o) :
    t.after i = (t.after i).take (o - i) ++ '(' :: t.after (o + 1) := by
  obtain ⟨c, hc, hopen⟩ := Text.nextIs_iff.1 h.opens
  rw [beq_iff_eq] at hopen
  subst hopen
  rw [← Text.after_eq_cons hc, show o = i + (o - i) by have := h.le; omega, ← Text.drop_after,
    Nat.add_sub_cancel_left, List.take_append_drop]

theorem NextOpens.ne_of_mem (h : NextOpens t i o) (hc : c ∈ (t.after i).take (o - i)) : c ≠ '(' := by
  obtain ⟨j, hj⟩ := List.mem_iff_getElem?.1 hc
  obtain ⟨hlt, -⟩ := List.getElem?_eq_some_iff.1 hj
  rw [List.length_take] at hlt
  rw [List.getElem?_take_of_lt (by omega), Text.after, List.getElem?_drop] at hj
  have hnot := h.least (i + j) (by omega) (Nat.le_add_right i j)
  rw [Text.nextIs, hj] at hnot
  simpa using hnot

theorem separatedAt_iff (hn : n < o - i) : SeparatedAt t i (i + n) ↔
    Separates isOpenGroup isCloseGroup 0 ((t.after i).take (o - i)) n := by
  rw [Separates, List.getElem?_take_of_lt hn, Text.after, List.getElem?_drop, List.take_take,
    Nat.min_eq_left (Nat.le_of_lt hn)]
  constructor
  · rintro ⟨-, hsep, hbalanced⟩
    rw [Nat.add_sub_cancel_left] at hbalanced
    exact ⟨hsep, hbalanced⟩
  · rintro ⟨hsep, hbalanced⟩
    refine ⟨Nat.le_add_right i n, hsep, ?_⟩
    rw [Nat.add_sub_cancel_left]
    exact hbalanced

/-- A step comes to the next call, or to the first separator of the group before it. -/
theorem nextBoundary?_spec_call (h : NextOpens t i o) : ∃ n, nextBoundary? t i = some n ∧
    (n = o ∨ n < o ∧ SeparatedAt t i n) ∧ ∀ k < o, SeparatedAt t i k → n ≤ k := by
  have hle := h.le
  have hlen := h.lt_length
  have hm : ((t.after i).take (o - i)).length = o - i := by
    rw [List.length_take, t.length_after]
    omega
  obtain ⟨n, hn, hend, hleast⟩ := boundaryOffset_spec (fun _ => not_group_of_isSeparator)
    (fun c => h.ne_of_mem) (t.after (o + 1)) 0 false
  rw [← h.after_eq] at hn
  refine ⟨i + n, by rw [nextBoundary?, hn]; rfl, ?_, fun k hk hsep => ?_⟩
  · rcases hend with rfl | ⟨-, hsep⟩
    · exact .inl (by omega)
    · have hlt := hsep.lt_length
      exact .inr ⟨by omega, (separatedAt_iff (by omega)).2 hsep⟩
  · obtain ⟨n', rfl⟩ := Nat.exists_eq_add_of_le hsep.le
    exact Nat.add_le_add_left (hleast n' rfl ((separatedAt_iff (by omega)).1 hsep)) i

/-- The next call is found if no separator of the group stands before it, and nothing else. -/
theorem first_eq (hclosed : t.unclosedBefore? (· == '(') (· == ')') s.start = none)
    (h : NextOpens t s.stop o) :
    ((∀ k < o, ¬SeparatedAt t s.stop k) → first t s = around? t (.point (o + 1))) ∧
      ((∃ k < o, SeparatedAt t s.stop k) → first t s = .ok none) := by
  obtain ⟨n, hn, hend, hleast⟩ := nextBoundary?_spec_call h
  unfold first
  rw [hclosed, hn, Option.none_or]
  constructor
  · intro hnone
    rcases hend with rfl | ⟨hlt, hsep⟩
    · rw [Option.filter_some, if_pos h.opens]
      rfl
    · exact absurd hsep (hnone n hlt)
  · rintro ⟨k, hk, hsep⟩
    have hlt := Nat.lt_of_le_of_lt (hleast k hk hsep) hk
    have hnot : ¬t.nextIs (· == '(') n = true := by
      rw [h.least n hlt (nextBoundary?_spec hn).1]
      decide
    rw [Option.filter_some, if_neg hnot]
    rfl

end Argument

/-! ## The modifier for the first argument -/

namespace Modifier

variable {m here : Modifier} {env : Setting} {t : Text} {target : Target} {o : Nat}

/-- A step to the first argument of the next call finds what a step from there finds. -/
theorem step_argument_first (hkind : m.kind = .argument .first) (hhere : here.kind = .argument .here)
    (hclosed : t.unclosedBefore? (· == '(') (· == ')') target.span.start = none)
    (ho : Argument.NextOpens t target.span.stop o)
    (hnone : ∀ k < o, ¬Argument.SeparatedAt t target.span.stop k) :
    m.step env t target = here.step env t (.ofSpan (.point (o + 1))) := by
  obtain ⟨c, hc, hopen⟩ := Text.nextIs_iff.1 ho.opens
  have hleft := Argument.leftBoundary?_succ hc (.inl (eq_of_beq hopen))
  have hfind : m.find env t target.span = Argument.around? t (.point (o + 1)) := by
    simp only [find, hkind]
    exact (Argument.first_eq hclosed ho).1 hnone
  have hfind' : here.find env t (.point (o + 1)) = Argument.around? t (.point (o + 1)) := by
    simp only [find, hhere]
  simp only [step, Target.span_ofSpan, hfind, hfind']
  -- What is left when nothing is found differs, but a parenthesis bounds what stands behind it.
  cases haround : Argument.around? t (.point (o + 1)) with
  | error e => rfl
  | ok f =>
    cases f with
    | some f => rfl
    | none => exact absurd haround (Argument.around?_ne_none hleft)

theorem step_argument_first_misses (hkind : m.kind = .argument .first)
    (hclosed : t.unclosedBefore? (· == '(') (· == ')') target.span.start = none)
    (ho : Argument.NextOpens t target.span.stop o)
    (hsep : ∃ k < o, Argument.SeparatedAt t target.span.stop k) :
    m.step env t target = .ok target := by
  have hfind : m.find env t target.span = .ok none := by
    simp only [find, hkind]
    exact (Argument.first_eq hclosed ho).2 hsep
  simp [step, hfind, hkind, Kind.mustFind]

/-- **The first argument of the next call.** Where every parenthesis that opens before the target
closes before it: the first argument of the next call is what stands around the place right
behind its parenthesis, if every separator between the target and the call lies in a group that
opens there, or behind the end of one that does not. Otherwise the target stays as it was. -/
theorem apply_argument_first (env : Setting) (hkind : m.kind = .argument .first)
    (hrep : m.repetitions = 1) (ht : target.removed.stop ≤ t.length)
    (hclosed : ∀ i < target.span.start, t.nextIs (· == '(') i = true →
      ∃ c < target.span.start, t.closing? (· == '(') (· == ')') i = some c)
    (ho : Argument.NextOpens t target.span.stop o) (hhere : here.kind = .argument .here)
    (hrep' : here.repetitions = 1) :
    ((∀ k < o, ¬Argument.SeparatedAt t target.span.stop k) →
      m.apply env t target = here.apply env t (.ofSpan (.point (o + 1)))) ∧
    ((∃ k < o, Argument.SeparatedAt t target.span.stop k) → m.apply env t target = .ok target) := by
  have hlen := ho.lt_length
  have hne : t ≠ [] := List.ne_nil_of_length_pos (by omega)
  have hwithin : (Target.ofSpan (.point (o + 1))).Within t := by
    rw [Target.within_ofSpan, Span.stop_point]
    omega
  have houtside : t.unclosedBefore? (· == '(') (· == ')') target.span.start = none := by
    refine (Text.unclosedBefore?_eq_none_iff fun c hc => ?_).2 hclosed
    rw [eq_of_beq hc]
    rfl
  constructor
  · intro hnone
    rw [apply_of_step hrep hne ht, apply_of_step hrep' hne hwithin,
      step_argument_first hkind hhere houtside ho hnone]
  · intro hsep
    exact apply_of_step_eq_ok hrep hne ht (step_argument_first_misses hkind houtside ho hsep) ht

/-- A comma in brackets hides no call. -/
theorem apply_argument_first_brackets :
    let first : Modifier := { kind := .argument .first }
    let here : Modifier := { kind := .argument .here }
    let env : Setting := ⟨Settings.default, .none⟩
    let t : Text := ['g', '(', ')', ' ', '[', 'a', ',', 'b', ']', ' ', 'f', '(', 'c', ')']
    let target : Target := .ofSpan (.point 4)
    first.kind = .argument .first ∧ first.repetitions = 1 ∧ here.kind = .argument .here ∧
      here.repetitions = 1 ∧ target.removed.stop ≤ t.length ∧
      (∀ i < target.span.start, t.nextIs (· == '(') i = true →
        ∃ c < target.span.start, t.closing? (· == '(') (· == ')') i = some c) ∧
      Argument.NextOpens t target.span.stop 11 ∧
      (∀ k < 11, ¬Argument.SeparatedAt t target.span.stop k) ∧
      first.apply env t target = here.apply env t (.ofSpan (.point 12)) := by
  intro first here env t target
  have ht : target.removed.stop ≤ t.length := by decide
  have hclosed : ∀ i < target.span.start, t.nextIs (· == '(') i = true →
      ∃ c < target.span.start, t.closing? (· == '(') (· == ')') i = some c := by decide
  have ho : Argument.NextOpens t target.span.stop 11 := by decide
  have hnone : ∀ k < 11, ¬Argument.SeparatedAt t target.span.stop k := by decide
  exact ⟨rfl, rfl, rfl, rfl, ht, hclosed, ho, hnone,
    (apply_argument_first env rfl rfl ht hclosed ho rfl rfl).1 hnone⟩

/-- A comma in no call hides the call behind it: from the start of `a, f(b)` the argument of
`f` is not found. -/
theorem apply_argument_first_misses :
    let first : Modifier := { kind := .argument .first }
    let here : Modifier := { kind := .argument .here }
    let env : Setting := ⟨Settings.default, .none⟩
    let t : Text := ['a', ',', ' ', 'f', '(', 'b', ')']
    let target : Target := .ofSpan (.point 0)
    (∀ i < target.span.start, t.nextIs (· == '(') i = true →
        ∃ c < target.span.start, t.closing? (· == '(') (· == ')') i = some c) ∧
      Argument.NextOpens t target.span.stop 4 ∧ first.apply env t target = .ok target ∧
      here.apply env t (.ofSpan (.point 5)) = .ok (.ofSpan ⟨5, 6, by decide, by decide⟩) := by
  intro first here env t target
  have ho : Argument.NextOpens t target.span.stop 4 := by decide
  exact ⟨fun i hi => absurd hi (Nat.not_lt_zero i), ho, rfl, rfl⟩

end Modifier

end VoiceEdit
