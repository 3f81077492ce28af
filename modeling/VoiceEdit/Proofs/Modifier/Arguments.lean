import VoiceEdit.Proofs.Code.Enumeration
import VoiceEdit.Proofs.Modifier.Answers

/-!
# The arguments of a call

Whatever the arguments of a call hold, as long as their groups are balanced and no separator
stands outside them: the modifier for an argument selects the one it is asked for, and what
it removes leaves a list of the others. The modifiers that step from one to the next reach
every one of them, in order, from the one parenthesis of the call or from the other.

A text that reaches beyond the limit of spans may be refused instead.

Results:

* `steps_next_answer`, `steps_previous_answer`: so many steps, so many arguments.
* `apply_argument_removes`: an argument and what is left without it.
* `apply_argument_enumerates`: the arguments in turn, forwards and backwards.
-/
namespace VoiceEdit.Modifier

open Argument (Balanced IsArgument Lists Stands Selects FindsOne startIn)

variable {m : Modifier} {env : Setting} {t : Text} {target : Target} {p : Target → Prop}

/-! ## Answers -/

theorem step_answers (h : FindsOne t (m.find env t target.span) p) :
    Answers t (m.step env t target) p := by
  unfold step
  rcases h with ⟨found, hfound, hp⟩ | ⟨hlong, e, he⟩
  · rw [hfound]
    exact .inl ⟨found, rfl, hp⟩
  · rw [he]
    exact .inr ⟨hlong, e, rfl⟩

/-! ## One argument -/

variable {pre cs post a : Text} {as : List Text} {i k first : Nat}

/-- Every argument of a call stands between what bounds it. -/
theorem stands_nth (hlists : Lists as cs) (ht : t = pre ++ '(' :: (cs ++ ')' :: post))
    (ha : as[i]? = some a) : Stands t (pre.length + 1 + startIn as i) a := by
  rw [ht]
  exact hlists.stands pre post (.inl rfl) (.inl rfl) ha

/-- **An argument goes alone.** In every call of at least two arguments, from every place in
or at the edge of one of them at which no group of it is open: that argument is selected,
without the white space at its ends; and what is left of the text when it is deleted is the
same call of the other arguments, in order and up to white space at their ends. -/
theorem apply_argument_removes (env : Setting) (hkind : m.kind = .argument .here)
    (hrep : m.repetitions = 1) (hlists : Lists as cs) (hmany : 2 ≤ as.length)
    (ht : t = pre ++ '(' :: (cs ++ ')' :: post)) (ha : as[i]? = some a)
    (hfirst : first = pre.length + 1 + startIn as i) (hk : k ≤ a.length)
    (hbalanced : Balanced (a.take k)) :
    Answers t (m.apply env t (.ofSpan (.point (first + k)))) fun found =>
      Selects t first a found.span ∧
      ∃ as' cs', Lists as' cs' ∧ as'.map Text.trim = (as.eraseIdx i).map Text.trim ∧
        t.replace found.removed [] = pre ++ '(' :: (cs' ++ ')' :: post) := by
  have hstands : Stands t first a := by
    rw [hfirst]
    exact stands_nth hlists ht ha
  have hbounds := hstands.bounds.2
  have hwithin : (Target.ofSpan (.point (first + k))).Within t := by
    rw [Target.within_ofSpan, Span.stop_point]
    omega
  have hne : t ≠ [] := List.ne_nil_of_length_pos (by omega)
  rw [apply_eq_steps (by rw [hrep]; exact Nat.one_ne_zero) hne hwithin, hrep]
  refine steps_succ_answer (step_answers ?_)
  have hfind : m.find env t (.point (first + k)) = Argument.around? t (.point (first + k)) := by
    unfold find
    rw [hkind]
  rw [Target.span_ofSpan, hfind]
  refine (hstands.around? hk hbalanced).mono fun found hfound => ?_
  obtain ⟨hin, hselects, hleft, hright⟩ := hfound
  exact ⟨hin, .inl ⟨found, rfl, hselects,
    hlists.exists_removed hmany ha ht hfirst hselects hleft hright⟩⟩

/-- From `f(a, g(b, c) ; d)` the call of `g` goes with the comma before it. -/
theorem apply_argument_removes_call :
    let m : Modifier := { kind := .argument .here }
    let env : Setting := ⟨Settings.default, .none⟩
    let a : Text := [' ', 'g', '(', 'b', ',', ' ', 'c', ')', ' ']
    let as : List Text := [['a'], a, [' ', 'd']]
    let cs : Text := ['a'] ++ ',' :: (a ++ ';' :: [' ', 'd'])
    let t : Text := ['f'] ++ '(' :: (cs ++ ')' :: [])
    m.kind = .argument .here ∧ m.repetitions = 1 ∧ Lists as cs ∧ 2 ≤ as.length ∧
      as[1]? = some a ∧ 2 ≤ a.length ∧ Balanced (a.take 2) ∧
      ∃ found, m.apply env t (.ofSpan (.point 6)) = .ok found ∧ Selects t 4 a found.span ∧
        ∃ as' cs', Lists as' cs' ∧ as'.map Text.trim = [['a'], ['d']] ∧
          t.replace found.removed [] = ['f'] ++ '(' :: (cs' ++ ')' :: []) := by
  intro m env a as cs t
  have hlists : Lists as cs := by
    refine .cons ?_ ?_ (.cons ?_ ?_ (.last ?_))
    all_goals decide
  have hbalanced : Balanced (a.take 2) := by decide
  have hmany : 2 ≤ as.length := by simp [as]
  have hk : 2 ≤ a.length := by simp [a]
  refine ⟨rfl, rfl, hlists, hmany, rfl, hk, hbalanced, ?_⟩
  have hkind : m.kind = .argument .here := rfl
  have ht : t = ['f'] ++ '(' :: (cs ++ ')' :: []) := rfl
  have hget : as[1]? = some a := rfl
  have hfirst : 4 = ['f'].length + 1 + startIn as 1 := by simp [startIn, as]
  rcases apply_argument_removes env hkind rfl hlists hmany ht hget hfirst hk hbalanced with
    ⟨found, happly, hselects, hleft⟩ | ⟨hlong, -⟩
  · exact ⟨found, happly, hselects, hleft⟩
  · exact absurd hlong (by decide)

/-! ## The arguments in turn -/

/-- What is selected is the argument with this number. -/
def IsNth (t : Text) (as : List Text) (base i : Nat) (found : Target) : Prop :=
  ∃ a, as[i]? = some a ∧ Selects t (base + startIn as i) a found.span

/-- Two arguments stand next to each other. -/
theorem exists_neighbours (hlists : Lists as cs) (ht : t = pre ++ '(' :: (cs ++ ')' :: post))
    (hi : i + 1 < as.length) :
    ∃ a a', as[i]? = some a ∧ as[i + 1]? = some a' ∧ Stands t (pre.length + 1 + startIn as i) a ∧
      Stands t (pre.length + 1 + startIn as i + a.length + 1) a' ∧
      pre.length + 1 + startIn as (i + 1) = pre.length + 1 + startIn as i + a.length + 1 := by
  have ha := List.getElem?_eq_getElem (Nat.lt_of_succ_lt hi)
  have ha' := List.getElem?_eq_getElem hi
  have hnext := Argument.startIn_succ ha
  have hstands' := stands_nth hlists ht ha'
  rw [hnext, ← Nat.add_assoc, ← Nat.add_assoc] at hstands'
  exact ⟨_, _, ha, ha', stands_nth hlists ht ha, hstands', by omega⟩

/-- A step forwards comes from an argument that is not the last to the one behind it. -/
theorem step_next_answers (hkind : m.kind = .argument .next) (hlists : Lists as cs)
    (ht : t = pre ++ '(' :: (cs ++ ')' :: post)) (hi : i + 1 < as.length)
    (h : IsNth t as (pre.length + 1) i target) :
    Answers t (m.step env t target) fun found =>
      found.Within t ∧ IsNth t as (pre.length + 1) (i + 1) found := by
  obtain ⟨a, a', ha, ha', hstands, hstands', hnext⟩ := exists_neighbours hlists ht hi
  obtain ⟨b, hb, hselects⟩ := h
  cases ha.symm.trans hb
  refine step_answers ?_
  unfold find
  rw [hkind]
  refine (hselects.next hstands hstands').mono fun found hfound => ⟨hfound.1, a', ha', ?_⟩
  rw [hnext]
  exact hfound.2

/-- A step backwards comes from an argument that is not the first to the one before it. -/
theorem step_previous_answers (hkind : m.kind = .argument .previous) (hlists : Lists as cs)
    (ht : t = pre ++ '(' :: (cs ++ ')' :: post)) (hi : i + 1 < as.length)
    (h : IsNth t as (pre.length + 1) (i + 1) target) :
    Answers t (m.step env t target) fun found =>
      found.Within t ∧ IsNth t as (pre.length + 1) i found := by
  obtain ⟨a, a', ha, ha', hstands, hstands', hnext⟩ := exists_neighbours hlists ht hi
  obtain ⟨b, hb, hselects⟩ := h
  cases ha'.symm.trans hb
  rw [hnext] at hselects
  refine step_answers ?_
  unfold find
  rw [hkind]
  exact (hselects.previous hstands hstands').mono fun found hfound => ⟨hfound.1, a, ha, hfound.2⟩

/-- So many steps forwards come to the argument that lies as many behind. -/
theorem steps_next_answer {n : Nat} (hkind : m.kind = .argument .next) (hlists : Lists as cs)
    (ht : t = pre ++ '(' :: (cs ++ ')' :: post)) (hi : i + n < as.length)
    (h : IsNth t as (pre.length + 1) i target) :
    Answers t (m.steps env t n target) (IsNth t as (pre.length + 1) (i + n)) := by
  refine steps_answers (P := fun k => IsNth t as (pre.length + 1) (i + k))
    (fun k hk found hfound => ?_) h
  have hlt : i + k + 1 < as.length := by omega
  exact step_next_answers hkind hlists ht hlt hfound

/-- So many steps backwards come to the argument that lies as many before. -/
theorem steps_previous_answer {n : Nat} (hkind : m.kind = .argument .previous)
    (hlists : Lists as cs) (ht : t = pre ++ '(' :: (cs ++ ')' :: post)) (hi : i + n < as.length)
    (h : IsNth t as (pre.length + 1) (i + n) target) :
    Answers t (m.steps env t n target) (IsNth t as (pre.length + 1) i) := by
  have hrun : Answers t (m.steps env t n target) (IsNth t as (pre.length + 1) (i + n - n)) := by
    refine steps_answers (P := fun k => IsNth t as (pre.length + 1) (i + n - k))
      (fun k hk found hfound => ?_) h
    have hnext : i + n - k = i + n - (k + 1) + 1 := by omega
    rw [hnext] at hfound
    exact step_previous_answers hkind hlists ht (by omega) hfound
  rwa [Nat.add_sub_cancel] at hrun

/-- From before the call, a step forwards comes to the first argument. -/
theorem step_next_answers_first (hkind : m.kind = .argument .next) (hlists : Lists as cs)
    (ht : t = pre ++ '(' :: (cs ++ ')' :: post)) (ha : as[0]? = some a) :
    Answers t (m.step env t (.ofSpan (.point pre.length))) fun found =>
      found.Within t ∧ IsNth t as (pre.length + 1) 0 found := by
  refine step_answers ?_
  unfold find
  rw [hkind]
  refine ((stands_nth hlists ht ha).next ?_ fun k hk hlt => ?_).mono fun found hfound =>
    ⟨hfound.1, a, ha, hfound.2⟩
  · rw [Target.span_ofSpan, Span.stop_point]
    omega
  · rw [Target.span_ofSpan, Span.stop_point] at hk
    rw [Argument.startIn_zero] at hlt
    omega

/-- From behind the call, a step backwards comes to the last argument. -/
theorem step_previous_answers_last (hkind : m.kind = .argument .previous) (hlists : Lists as cs)
    (ht : t = pre ++ '(' :: (cs ++ ')' :: post)) (hi : i + 1 = as.length) (ha : as[i]? = some a) :
    Answers t (m.step env t (.ofSpan (.point (pre.length + 1 + cs.length + 1)))) fun found =>
      found.Within t ∧ IsNth t as (pre.length + 1) i found := by
  have hlast := hlists.startIn_length
  rw [← hi, Argument.startIn_succ ha] at hlast
  refine step_answers ?_
  unfold find
  rw [hkind]
  refine ((stands_nth hlists ht ha).previous ?_ fun k hk hlt => ?_).mono fun found hfound =>
    ⟨hfound.1, a, ha, hfound.2⟩
  · rw [Target.span_ofSpan, Span.start_point]
    omega
  · rw [Target.span_ofSpan, Span.start_point] at hlt
    omega

/-- **The arguments in turn.** In every call, from right before its parenthesis: so many steps
forwards select the argument with that number, without the white space at its ends; and from
right behind the call, so many steps backwards the one with that number from the end. -/
theorem apply_argument_enumerates (env : Setting) (hlists : Lists as cs)
    (ht : t = pre ++ '(' :: (cs ++ ')' :: post)) (ha : as[i]? = some a) :
    (m.kind = .argument .next → m.repetitions = i + 1 →
      Answers t (m.apply env t (.ofSpan (.point pre.length))) fun found =>
        Selects t (pre.length + 1 + startIn as i) a found.span) ∧
    (m.kind = .argument .previous → i + m.repetitions = as.length →
      Answers t (m.apply env t (.ofSpan (.point (pre.length + 1 + cs.length + 1)))) fun found =>
        Selects t (pre.length + 1 + startIn as i) a found.span) := by
  have hi := (List.getElem?_eq_some_iff.1 ha).1
  have hlen : t.length = pre.length + 1 + cs.length + 1 + post.length := by
    rw [ht]
    simp only [List.length_append, List.length_cons]
    omega
  have hne : t ≠ [] := List.ne_nil_of_length_pos (by omega)
  have hnth {found : Target} (h : IsNth t as (pre.length + 1) i found) :
      Selects t (pre.length + 1 + startIn as i) a found.span := by
    obtain ⟨b, hb, hselects⟩ := h
    cases ha.symm.trans hb
    exact hselects
  constructor
  · intro hkind hrep
    have hwithin : (Target.ofSpan (.point pre.length)).Within t := by
      rw [Target.within_ofSpan, Span.stop_point]
      omega
    rw [apply_eq_steps (by omega) hne hwithin, hrep]
    have hzero := List.getElem?_eq_getElem (Nat.zero_lt_of_lt hi)
    refine steps_succ_answer ((step_next_answers_first hkind hlists ht hzero).mono
      fun found hfound => ⟨hfound.1, ?_⟩)
    have hrun : Answers t (m.steps env t i found) (IsNth t as (pre.length + 1) (0 + i)) :=
      steps_next_answer hkind hlists ht (by omega) hfound.2
    rw [Nat.zero_add] at hrun
    exact hrun.mono fun _ => hnth
  · intro hkind hrep
    have hwithin : (Target.ofSpan (.point (pre.length + 1 + cs.length + 1))).Within t := by
      rw [Target.within_ofSpan, Span.stop_point]
      omega
    obtain ⟨n, hn⟩ := Nat.exists_eq_succ_of_ne_zero (show m.repetitions ≠ 0 by omega)
    rw [apply_eq_steps (by omega) hne hwithin, hn]
    have hlast := List.getElem?_eq_getElem (show i + n < as.length by omega)
    refine steps_succ_answer ((step_previous_answers_last hkind hlists ht (by omega) hlast).mono
      fun found hfound => ⟨hfound.1, ?_⟩)
    exact (steps_previous_answer hkind hlists ht (by omega) hfound.2).mono fun _ => hnth

/-- Of `f(a; g(b))` the second argument is the last. -/
theorem apply_argument_enumerates_call :
    let next : Modifier := { kind := .argument .next, repetitions := 2 }
    let previous : Modifier := { kind := .argument .previous }
    let env : Setting := ⟨Settings.default, .none⟩
    let a : Text := [' ', 'g', '(', 'b', ')']
    let as : List Text := [['a'], a]
    let cs : Text := ['a'] ++ ';' :: a
    let t : Text := ['f'] ++ '(' :: (cs ++ ')' :: [])
    Lists as cs ∧ as[1]? = some a ∧
      (∃ found, next.apply env t (.ofSpan (.point 1)) = .ok found ∧ Selects t 4 a found.span) ∧
      ∃ found, previous.apply env t (.ofSpan (.point 10)) = .ok found ∧ Selects t 4 a found.span := by
  intro next previous env a as cs t
  have hlists : Lists as cs := by
    refine .cons ?_ ?_ (.last ?_)
    all_goals decide
  have hshort : ¬Span.limit < t.length := by decide
  have ht : t = ['f'] ++ '(' :: (cs ++ ')' :: []) := rfl
  have hget : as[1]? = some a := rfl
  have hforwards := (apply_argument_enumerates (m := next) env hlists ht hget).1 rfl rfl
  have hbackwards := (apply_argument_enumerates (m := previous) env hlists ht hget).2 rfl rfl
  refine ⟨hlists, rfl, ?_, ?_⟩
  · exact hforwards.resolve_right fun h => hshort h.1
  · exact hbackwards.resolve_right fun h => hshort h.1

end VoiceEdit.Modifier
