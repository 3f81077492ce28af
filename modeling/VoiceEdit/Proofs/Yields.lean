import VoiceEdit.Target
import VoiceEdit.Text.Basic

/-!
# Computations that succeed in the text

A scan answers offsets, spans and targets are built from them, and building one can
fail. `Yields` says that a computation succeeds with an answer of which something holds;
it follows the steps of the computation, so each of them is looked at alone. Of a target
that is usually that it lies in the text: what it removes does, and with it the span,
which a removal contains.

Results:

* `bind_eq_ok`, `map_eq_ok`, `exists_of_mapM`, `mem_of_mapM`, `pairwise_of_mapM`,
  `mapError_eq_ok`: what a computation that succeeds has gone through; `bind_eq_error`,
  `exists_error_of_mapM`: where one fails.
* `eq_or_of_find?`: what is found first in an ordered list.
* `Yields.bind`, `yields_mapM`: steps in order, and one step for each member of a list.
* `yields_ofBounds`, `yields_withRemoval`: what has to hold of offsets and of spans.
* `Yields.finds`, `Yields.findsSpan`: a search that always finds something.
-/
namespace VoiceEdit

variable {ε α β : Type} {p : α → Prop} {q : β → Prop}

/-- A computation in two steps succeeds when the first does and the second does on its
answer. -/
theorem bind_eq_ok {r : Except ε α} {f : α → Except ε β} {b : β} :
    r >>= f = .ok b ↔ ∃ a, r = .ok a ∧ f a = .ok b := by
  constructor
  · intro h
    cases r with
    | error err => cases h
    | ok a => exact ⟨a, rfl, h⟩
  · rintro ⟨a, rfl, h⟩
    exact h

theorem bind_eq_error {r : Except ε α} {f : α → Except ε β} {e : ε} :
    r >>= f = .error e ↔ r = .error e ∨ ∃ a, r = .ok a ∧ f a = .error e := by
  cases r with
  | error err =>
    constructor
    · intro h
      cases h
      exact .inl rfl
    · rintro (h | ⟨a, h, -⟩)
      · cases h
        rfl
      · cases h
  | ok a =>
    constructor
    · exact fun h => .inr ⟨a, rfl, h⟩
    · rintro (h | ⟨a', h, hf⟩)
      · cases h
      · cases h
        exact hf

theorem map_eq_ok {r : Except ε α} {f : α → β} {b : β} :
    f <$> r = .ok b ↔ ∃ a, r = .ok a ∧ f a = b := by
  constructor
  · intro h
    cases r with
    | error err => cases h
    | ok a =>
      cases h
      exact ⟨a, rfl, rfl⟩
  · rintro ⟨a, rfl, rfl⟩
    rfl

/-- Every answer of one step for each member of a list comes from a member. -/
theorem exists_of_mapM {f : α → Except ε β} {as : List α} {bs : List β} {b : β}
    (h : as.mapM f = .ok bs) (hb : b ∈ bs) : ∃ a ∈ as, f a = .ok b := by
  induction as generalizing bs with
  | nil =>
    cases h
    cases hb
  | cons a as ih =>
    rw [List.mapM_cons] at h
    obtain ⟨b', hfirst, h⟩ := bind_eq_ok.1 h
    obtain ⟨more, hmore, h⟩ := bind_eq_ok.1 h
    cases h
    rcases List.mem_cons.1 hb with rfl | hb
    · exact ⟨a, List.mem_cons_self, hfirst⟩
    · obtain ⟨a', ha', hf⟩ := ih hmore hb
      exact ⟨a', List.mem_cons_of_mem _ ha', hf⟩

/-- Every member of a list has an answer of the step for it. -/
theorem mem_of_mapM {f : α → Except ε β} {as : List α} {bs : List β} {a : α}
    (h : as.mapM f = .ok bs) (ha : a ∈ as) : ∃ b ∈ bs, f a = .ok b := by
  induction as generalizing bs with
  | nil => cases ha
  | cons a' as ih =>
    rw [List.mapM_cons] at h
    obtain ⟨b, hfirst, h⟩ := bind_eq_ok.1 h
    obtain ⟨more, hmore, h⟩ := bind_eq_ok.1 h
    cases h
    rcases List.mem_cons.1 ha with rfl | ha
    · exact ⟨b, List.mem_cons_self, hfirst⟩
    · obtain ⟨b', hb', hf⟩ := ih hmore ha
      exact ⟨b', List.mem_cons_of_mem _ hb', hf⟩

/-- Steps for the members of a list fail where one of them does. -/
theorem exists_error_of_mapM {f : α → Except ε β} {as : List α} {e : ε}
    (h : as.mapM f = .error e) : ∃ a ∈ as, f a = .error e := by
  induction as with
  | nil => cases h
  | cons a as ih =>
    rw [List.mapM_cons] at h
    rcases bind_eq_error.1 h with hfirst | ⟨b, -, h⟩
    · exact ⟨a, List.mem_cons_self, hfirst⟩
    · rcases bind_eq_error.1 h with hmore | ⟨bs, -, h⟩
      · obtain ⟨a', ha', hf⟩ := ih hmore
        exact ⟨a', List.mem_cons_of_mem _ ha', hf⟩
      · cases h

/-- What holds of each two members of a list in their order holds of the answers. -/
theorem pairwise_of_mapM {f : α → Except ε β} {R : α → α → Prop} {S : β → β → Prop} {as : List α}
    {bs : List β} (hf : ∀ a a' b b', f a = .ok b → f a' = .ok b' → R a a' → S b b')
    (hp : as.Pairwise R) (h : as.mapM f = .ok bs) : bs.Pairwise S := by
  induction as generalizing bs with
  | nil =>
    cases h
    exact .nil
  | cons a as ih =>
    rw [List.mapM_cons] at h
    obtain ⟨b, hfirst, h⟩ := bind_eq_ok.1 h
    obtain ⟨more, hmore, h⟩ := bind_eq_ok.1 h
    cases h
    obtain ⟨hhead, htail⟩ := List.pairwise_cons.1 hp
    refine .cons (fun b' hb' => ?_) (ih htail hmore)
    obtain ⟨a', ha', hb'⟩ := exists_of_mapM hmore hb'
    exact hf a a' b b' hfirst hb' (hhead a' ha')

/-- What is found first stands before everything else that could have been found. -/
theorem eq_or_of_find? {α : Type} {R : α → α → Prop} {q : α → Bool} {as : List α} {a b : α}
    (has : as.Pairwise R) (h : as.find? q = some a) (hb : b ∈ as) (hq : q b = true) :
    b = a ∨ R a b := by
  obtain ⟨-, before, behind, rfl, hbefore⟩ := List.find?_eq_some_iff_append.1 h
  rcases List.mem_append.1 hb with hb | hb
  · have hnot := hbefore b hb
    rw [hq] at hnot
    cases hnot
  · rcases List.mem_cons.1 hb with rfl | hb
    · exact .inl rfl
    · have htail := (List.pairwise_append.1 has).2.1
      exact .inr ((List.pairwise_cons.1 htail).1 b hb)

theorem ok_mapError_bind {ε' : Type} {f : ε → ε'} {a : α} {g : α → Except ε' β} :
    ((Except.ok a).mapError f >>= g) = g a := rfl

theorem mapError_eq_ok {ε' : Type} {f : ε → ε'} {r : Except ε α} {a : α} :
    r.mapError f = .ok a ↔ r = .ok a := by
  cases r with
  | error err => exact ⟨nofun, nofun⟩
  | ok a' =>
    constructor
    · intro h
      cases h
      rfl
    · intro h
      cases h
      rfl

/-- The computation succeeds, and its answer satisfies `p`. -/
def Yields (r : Except ε α) (p : α → Prop) : Prop := ∃ a, r = .ok a ∧ p a

theorem Yields.pure {a : α} (h : p a) : Yields (pure a : Except ε α) p := ⟨a, rfl, h⟩

theorem Yields.mono {r : Except ε α} {p' : α → Prop} (h : Yields r p) (hp : ∀ a, p a → p' a) :
    Yields r p' := by
  obtain ⟨a, hr, ha⟩ := h
  exact ⟨a, hr, hp a ha⟩

theorem Yields.bind {r : Except ε α} {f : α → Except ε β} (h : Yields r p)
    (hf : ∀ a, p a → Yields (f a) q) : Yields (r >>= f) q := by
  obtain ⟨a, rfl, ha⟩ := h
  exact hf a ha

theorem Yields.map {r : Except ε α} {f : α → β} (h : Yields r p) (hf : ∀ a, p a → q (f a)) :
    Yields (f <$> r) q := by
  obtain ⟨a, rfl, ha⟩ := h
  exact ⟨f a, rfl, hf a ha⟩

/-- One step for each member of a list. -/
theorem yields_mapM {f : α → Except ε β} {as : List α} (h : ∀ a ∈ as, Yields (f a) q) :
    Yields (as.mapM f) fun bs => ∀ b ∈ bs, q b := by
  induction as with
  | nil => exact .pure fun b hb => by cases hb
  | cons a as ih =>
    rw [List.mapM_cons]
    refine (h a List.mem_cons_self).bind fun b hb => ?_
    refine (ih fun a' ha' => h a' (List.mem_cons_of_mem a ha')).bind fun bs hbs => .pure ?_
    intro b' hb'
    rcases List.mem_cons.1 hb' with rfl | hmem
    · exact hb
    · exact hbs b' hmem

/-! ## Spans and targets -/

/-- What the target selects and what it removes lie in the text. -/
def Target.Within (target : Target) (t : Text) : Prop := target.removed.stop ≤ t.length

theorem Target.Within.span_stop_le {t : Text} {target : Target} (h : target.Within t) :
    target.span.stop ≤ t.length :=
  Nat.le_trans (Span.contains_iff.1 target.contains_removed).2 h

theorem Target.within_ofSpan {t : Text} {s : Span} :
    (Target.ofSpan s).Within t ↔ s.stop ≤ t.length := Iff.rfl

/-- Bounds in order and within the limit make a span. -/
theorem yields_ofBounds {start stop : Nat} (h : start ≤ stop) (hl : stop ≤ Span.limit) :
    Yields (Span.ofBounds start stop) fun s => s.start = start ∧ s.stop = stop :=
  ⟨_, Span.ofBounds_eq_ok h hl, rfl, rfl⟩

/-- A removal around a span, both in the text, makes a target in the text. -/
theorem yields_withRemoval {t : Text} {s r : Span} (h₁ : r.start ≤ s.start) (h₂ : s.stop ≤ r.stop)
    (hr : r.stop ≤ t.length) : Yields (Target.withRemoval s r) (·.Within t) := by
  have hc : r.contains s = true := Span.contains_iff.2 ⟨h₁, h₂⟩
  unfold Target.withRemoval
  rw [dif_pos hc]
  exact ⟨_, rfl, hr⟩

/-- What goes beyond the span, if anything does: it holds the span and lies in the text. -/
def Removes (t : Text) (s : Span) (o : Option Span) : Prop :=
  ∀ r ∈ o, r.start ≤ s.start ∧ s.stop ≤ r.stop ∧ r.stop ≤ t.length

theorem removes_none {t : Text} {s : Span} : Removes t s none := fun _ h => by cases h

theorem yields_removal {t : Text} {s : Span} {start stop : Nat} (ht : t.length ≤ Span.limit)
    (h₁ : start ≤ s.start) (h₂ : s.stop ≤ stop) (h₃ : stop ≤ t.length) :
    Yields (some <$> Span.ofBounds start stop) (Removes t s) := by
  have hs := s.start_le_stop
  refine (yields_ofBounds (by omega) (by omega)).map fun r hr => ?_
  intro r' hr'
  cases hr'
  omega

/-- A span in the text makes a target in the text, with such a removal or without. -/
theorem yields_withRemoval? {t : Text} {s : Span} {o : Option Span} (hs : s.stop ≤ t.length)
    (ho : Removes t s o) : Yields (Target.withRemoval? s o) (·.Within t) := by
  cases o with
  | none => exact ⟨_, rfl, hs⟩
  | some r =>
    obtain ⟨h₁, h₂, h₃⟩ := ho r rfl
    exact yields_withRemoval h₁ h₂ h₃

/-! ## Searches -/

/-- The search succeeds, and a target it finds lies in the text. -/
def Finds (t : Text) (r : Except ε (Option Target)) : Prop := Yields r fun o => ∀ f ∈ o, f.Within t

/-- The search succeeds, and a span it finds lies in the text. -/
def FindsSpan (t : Text) (r : Except ε (Option Span)) : Prop :=
  Yields r fun o => ∀ s ∈ o, s.stop ≤ t.length

variable {t : Text}

theorem finds_none : Finds t (.ok none : Except ε (Option Target)) :=
  ⟨none, rfl, fun _ h => by cases h⟩

theorem findsSpan_none : FindsSpan t (.ok none : Except ε (Option Span)) :=
  ⟨none, rfl, fun _ h => by cases h⟩

/-- A target that is always found. -/
theorem Yields.finds {r : Except ε Target} (h : Yields r (·.Within t)) :
    Finds t (r >>= fun f => .ok (some f)) := by
  refine h.bind fun f hf => ⟨some f, rfl, ?_⟩
  intro f' hf'
  cases hf'
  exact hf

theorem Yields.finds_map {r : Except ε Target} (h : Yields r (·.Within t)) :
    Finds t (some <$> r) := by
  refine h.map fun f hf => ?_
  intro f' hf'
  cases hf'
  exact hf

theorem Yields.findsSpan {r : Except ε Span} (h : Yields r (·.stop ≤ t.length)) :
    FindsSpan t (some <$> r) := by
  refine h.map fun s hs => ?_
  intro s' hs'
  cases hs'
  exact hs

end VoiceEdit
