import VoiceEdit.Proofs.Code.Chains
import VoiceEdit.Proofs.Modifier.Answers
import VoiceEdit.Proofs.Modifier.Bounds
import VoiceEdit.Proofs.Modifier.Rest

/-!
# Calls that are found

Whatever a modifier for calls finds is a call, and lies on the side it was looked for on. From the
start of a call that was found, the modifier finds a call that starts there if the first group in
its chain is an argument list, and none if it is not: forwards a chain is read over characters only.

Results:

* `Call.exists_at?_of_find?`, `Call.foundFrom_of_find?`: what is found for a span.
* `step_finds_calls`: one step of a modifier for calls.
* `apply_finds_calls`: any number of them.
* `apply_call_from_start`: the modifier again, from the start of what it found.
* `apply_call_lost_from_start`: a call that is not found from its start.
-/
namespace VoiceEdit

namespace Call

variable {t : Text} {place : Place} {s call : Span} {target found : Target}

/-- The call that is looked for from a span. -/
def find? (t : Text) (s : Span) : Place → Except Span.Error (Option Span)
  | .here => around? t s
  | .first => .ok (first? t s)
  | .next => .ok (next? t s)
  | .previous => .ok (previous? t s)

/-- What is found for a span is a call; the next one starts behind the span, and the previous one
ends before it. -/
structure FoundFrom (t : Text) (place : Place) (s : Span) (found : Target) : Prop where
  isCall : ∃ o, IsCall t found.span o
  removal_eq : found.removal = none
  next : place = .next → s.stop ≤ found.span.start
  previous : place = .previous → found.span.stop ≤ s.start

/-- What is found from what was found for a span is found for that span. -/
theorem FoundFrom.trans (h : FoundFrom t place s target) (h' : FoundFrom t place target.span found) :
    FoundFrom t place s found := by
  have hle := target.span.start_le_stop
  refine ⟨h'.isCall, h'.removal_eq, fun hnext => ?_, fun hprevious => ?_⟩
  · have := h.next hnext
    have := h'.next hnext
    omega
  · have := h.previous hprevious
    have := h'.previous hprevious
    omega

/-- Whatever is found is found at the parenthesis that opens its arguments. -/
theorem exists_at?_of_find? (h : find? t s place = .ok (some call)) :
    ∃ o, at? t o = .ok (some call) := by
  have of_mem {openers : List Nat} (hmem : call ∈ openers.filterMap (whole? t)) :
      ∃ o, at? t o = .ok (some call) := by
    obtain ⟨o, -, ho⟩ := List.mem_filterMap.1 hmem
    exact ⟨o, whole?_eq_some_iff.1 ho⟩
  cases place with
  | here =>
    unfold find? around? at h
    cases ho : openerAt? t s.start with
    | none =>
      rw [ho] at h
      cases h
    | some o =>
      rw [ho] at h
      exact ⟨o, h⟩
  | first => exact of_mem (List.mem_of_head? (Except.ok.inj h))
  | next => exact of_mem (List.mem_of_find?_eq_some (Except.ok.inj h))
  | previous => exact of_mem (List.mem_of_find?_eq_some (Except.ok.inj h))

theorem foundFrom_of_find? (h : find? t s place = .ok (some call)) :
    FoundFrom t place s (.ofSpan call) := by
  obtain ⟨o, hat⟩ := exists_at?_of_find? h
  refine ⟨⟨o, isCall_of_at? hat⟩, rfl, fun hnext => ?_, fun hprevious => ?_⟩
  · subst hnext
    have hcall : next? t s = some call := Except.ok.inj h
    simpa using List.find?_some hcall
  · subst hprevious
    have hcall : previous? t s = some call := Except.ok.inj h
    simpa using List.find?_some hcall

end Call

namespace Modifier

open Call (FirstGroup FoundFrom IsCall OpensCall)

variable {m : Modifier} {env : Setting} {t : Text} {s : Span} {target found : Target} {place : Place}

/-! ## What is found is a call -/

theorem find_call (env : Setting) (hkind : m.kind = .call place) (s : Span) :
    m.find env t s = selectSpan (Call.find? t s place) := by
  cases place with
  | here | first | next | previous => simp only [find, hkind, Call.find?]

/-- In a text within the limit calls are looked for without fail, whatever the settings. -/
theorem finds_call (hkind : m.kind = .call place) (hlen : t.length ≤ Span.limit)
    (hs : s.stop ≤ t.length) : Finds t (m.find env t s) := by
  rw [find_call env hkind, ← find_call ⟨Settings.default, .none⟩ hkind]
  exact finds_find hlen Settings.oneLine_default hs

/-- A step leads to a call, or stays. -/
theorem step_finds_calls (hkind : m.kind = .call place) (ht : target.Within t) :
    Answers t (m.step env t target) fun found =>
      found.Within t ∧ (found = target ∨ FoundFrom t place target.span found) := by
  have hmust : m.kind.mustFind = false := by
    rw [hkind]
    rfl
  refine step_finds_or_keeps hmust ht (fun hlen => finds_call hkind hlen ht.span_stop_le)
    (fun found hfind => ?_) fun _ => .inl rfl
  rw [find_call env hkind] at hfind
  obtain ⟨call, hcall, rfl⟩ := exists_of_selectSpan hfind
  obtain ⟨o, hat⟩ := Call.exists_at?_of_find? hcall
  exact ⟨Call.stop_le_of_at? hat, .inr (Call.foundFrom_of_find? hcall)⟩

/-- **What is found is a call.** Whatever a modifier for calls answers, after any number of
repetitions, is its target or a call: the parenthesis that opens its arguments and the one at its
end are a pair, the arguments stand behind something that can be called, and what stands before them
is a chain that starts with no joint. The next call starts behind the target, and the previous one
ends before it. -/
theorem apply_finds_calls (env : Setting) (hkind : m.kind = .call place) (hrep : m.repetitions ≠ 0)
    (ht : target.removed.stop ≤ t.length) :
    Answers t (m.apply env t target) fun found =>
      found = target ∨ FoundFrom t place target.span found := by
  refine apply_keeps hrep ht (.inl rfl) fun next hnext hp => ?_
  refine (step_finds_calls hkind hnext).mono fun found hfound => ⟨hfound.1, ?_⟩
  rcases hfound.2 with rfl | hfound
  · exact hp
  · rcases hp with rfl | hp
    · exact .inr hfound
    · exact .inr (hp.trans hfound)

/-- The second call behind a cursor, with a group in its chain. -/
theorem apply_finds_calls_indexed :
    let m : Modifier := { kind := .call .next, repetitions := 2 }
    let env : Setting := ⟨Settings.default, .none⟩
    let t : Text := ['f', '(', ')', ' ', '-', 'a', '[', '0', ']', '.', 'b', '(', 'c', ')']
    let target : Target := .ofSpan (.point 0)
    m.kind = .call .next ∧ m.repetitions ≠ 0 ∧ target.removed.stop ≤ t.length ∧
      ∃ found, m.apply env t target = .ok found ∧ found.span = ⟨5, 14, by decide, by decide⟩ ∧
        FoundFrom t .next target.span found := by
  intro m env t target
  have ht : target.removed.stop ≤ t.length := by decide
  have happly : m.apply env t target = .ok (.ofSpan ⟨5, 14, by decide, by decide⟩) := by rfl
  rcases apply_finds_calls (m := m) env rfl (by decide) ht with ⟨found, hfound, hcall⟩ | ⟨hlong, -⟩
  · rw [happly] at hfound
    cases hfound
    exact ⟨rfl, by decide, ht, _, happly, rfl, hcall.resolve_left (by decide)⟩
  · exact absurd hlong (by decide)

/-! ## From the start of a call -/

/-- Applied once, the modifier answers the call that is found around its target. -/
theorem apply_of_call (env : Setting) {o : Nat} {call : Span} (hkind : m.kind = .call .here)
    (hrep : m.repetitions = 1) (ht : target.Within t)
    (haround : Call.around? t target.span = .ok (some call)) (hat : Call.at? t o = .ok (some call)) :
    m.apply env t target = .ok (.ofSpan call) := by
  have hne : t ≠ [] :=
    List.ne_nil_of_length_pos (Nat.zero_lt_of_lt (Call.isCall_of_at? hat).arguments.lt_length)
  have hfind : m.find env t target.span = .ok (some (.ofSpan call)) := by
    rw [find_call env hkind, Call.find?, haround]
    rfl
  have hwithin : (Target.ofSpan call).Within t := Call.stop_le_of_at? hat
  exact apply_of_step_eq_ok hrep hne ht (step_eq_ok_iff.2 (.inl hfind)) hwithin

/-- **A call from its own start.** The first group in the chain of a call that the modifier finds is
the call's own arguments or stands before them. If it is an argument list then from the start of the
call the modifier finds a call that starts there, with that list: the same call where the list is its
own. If it is not then from there it finds nothing, or a call that starts before. -/
theorem apply_call_from_start (env : Setting) (hkind : m.kind = .call .here)
    (hrep : m.repetitions = 1) (h : m.apply env t target = .ok found) (hne : found ≠ target) :
    let start : Target := .ofSpan (.point found.span.start)
    ∃ o g, IsCall t found.span o ∧ FirstGroup t found.span.start o g ∧
      (g = o → m.apply env t start = .ok found) ∧
      (OpensCall t found.span.start g → ∃ again, m.apply env t start = .ok again ∧
        IsCall t again.span g ∧ again.span.start = found.span.start ∧ again.removal = none) ∧
      (¬OpensCall t found.span.start g → ∀ again, m.apply env t start = .ok again →
        again = start ∨ again.span.start < found.span.start) := by
  intro start
  have hfind : m.find env t target.span = .ok (some found) :=
    (find_of_apply hrep h).resolve_right fun hsame => hne hsame.2
  rw [find_call env hkind] at hfind
  obtain ⟨call, hcall, rfl⟩ := exists_of_selectSpan hfind
  obtain ⟨o, hat⟩ := Call.exists_at?_of_find? hcall
  have hcall := Call.isCall_of_at? hat
  obtain ⟨g, hg⟩ := hcall.chain.exists_firstGroup
  have hstart : start.Within t := Nat.le_trans call.start_le_stop (Call.stop_le_of_at? hat)
  refine ⟨o, g, hcall, hg, ?_, fun hopens => ?_, fun hnot again hagain => ?_⟩
  · rintro rfl
    obtain ⟨first, haround, hfirst, -⟩ := Call.around?_of_firstGroup hat hg hcall.opensCall
    obtain rfl : call = first := Option.some.inj (Except.ok.inj (hat.symm.trans hfirst))
    exact apply_of_call env hkind hrep hstart haround hfirst
  · obtain ⟨first, haround, hfirst, hsame⟩ := Call.around?_of_firstGroup hat hg hopens
    have hagain := apply_of_call env hkind hrep hstart haround hfirst
    exact ⟨.ofSpan first, hagain, Call.isCall_of_at? hfirst, hsame, rfl⟩
  · rcases find_of_apply hrep hagain with hfind | ⟨-, hsame⟩
    · rw [find_call env hkind] at hfind
      obtain ⟨first, haround, rfl⟩ := exists_of_selectSpan hfind
      exact .inr (Call.start_lt_of_around? hat hg hnot haround)
    · exact .inl hsame

/-- From the start of `f(a).g(b)` the call `f(a)` is found. -/
theorem apply_call_from_start_chained :
    let m : Modifier := { kind := .call .here }
    let env : Setting := ⟨Settings.default, .none⟩
    let t : Text := ['f', '(', 'a', ')', '.', 'g', '(', 'b', ')']
    let target : Target := .ofSpan (.point 7)
    let found : Target := .ofSpan ⟨0, 9, by decide, by decide⟩
    m.kind = .call .here ∧ m.repetitions = 1 ∧ m.apply env t target = .ok found ∧ found ≠ target ∧
      ∃ again, m.apply env t (.ofSpan (.point 0)) = .ok again ∧ IsCall t again.span 1 ∧
        again.span.start = 0 := by
  intro m env t target found
  have happly : m.apply env t target = .ok found := by rfl
  have hne : found ≠ target := by decide
  obtain ⟨o, g, hcall, hg, -, hfirst, -⟩ := apply_call_from_start (m := m) env rfl rfl happly hne
  -- The first group stands behind the `f`, which is a character of the chain.
  have hle : g ≤ 1 := by
    refine Nat.le_of_not_lt fun hlt => ?_
    exact Call.not_chainCharAt_of_opener (.inl rfl) (hg.chars 1 (by decide) hlt)
  have hpos : g ≠ 0 := by
    rintro rfl
    rcases hg.group with rfl | ⟨c, -, hgroup⟩
    · exact absurd hcall.start_lt (Nat.lt_irrefl 0)
    · exact absurd hgroup.opener (by decide)
  obtain rfl : g = 1 := by omega
  obtain ⟨again, hagain, hcall', hstart, -⟩ := hfirst ⟨by decide, rfl, by decide⟩
  exact ⟨rfl, rfl, happly, hne, again, hagain, hcall', hstart⟩

/-- The call `a[0](b)` is found from within its arguments, and from its start nothing is. -/
theorem apply_call_lost_from_start :
    let m : Modifier := { kind := .call .here }
    let env : Setting := ⟨Settings.default, .none⟩
    let t : Text := ['a', '[', '0', ']', '(', 'b', ')']
    let found : Target := .ofSpan ⟨0, 7, by decide, by decide⟩
    m.apply env t (.ofSpan (.point 5)) = .ok found ∧ IsCall t found.span 4 ∧
      m.apply env t (.ofSpan (.point found.span.start)) = .ok (.ofSpan (.point found.span.start)) := by
  intro m env t found
  have hat : Call.at? t 4 = .ok (some found.span) := by rfl
  exact ⟨rfl, Call.isCall_of_at? hat, rfl⟩

end Modifier

end VoiceEdit
