import VoiceEdit.Text.Basic

/-!
# Nesting

Groups open and close, and a scan counts how deep it is in the groups it has entered
since it began. Read forwards it enters at openers and leaves at closers, read
backwards the other way round, so both directions are one scan over a list.

* `exitOffset`: where the scan leaves the group it began in, or meets a stop of that group.
* `unclosed`: every group a position sits in, innermost first.

Results:

* `exitOffset_lt`, `mem_unclosed_lt`: what a scan reports lies in what it read.
-/
namespace VoiceEdit

/-- How many elements a scan passes before it leaves the group it began in, or meets
a `stop` that lies in no group it entered. -/
def exitOffset {α : Type} (enter leave stop : α → Bool) : Nat → List α → Option Nat
  | _, [] => none
  | depth, a :: rest =>
    if enter a then (exitOffset enter leave stop (depth + 1) rest).map (· + 1)
    else if leave a then
      match depth with
      | 0 => some 0
      | depth + 1 => (exitOffset enter leave stop depth rest).map (· + 1)
    else if depth == 0 && stop a then some 0
    else (exitOffset enter leave stop depth rest).map (· + 1)

/-- The positions of the openers that are not closed before the scan began, read
backwards; an element's position is the number of elements behind it. -/
def unclosed {α : Type} (opens closes : α → Bool) : Nat → List α → List Nat
  | _, [] => []
  | depth, a :: rest =>
    if closes a then unclosed opens closes (depth + 1) rest
    else if opens a then
      match depth with
      | 0 => rest.length :: unclosed opens closes 0 rest
      | depth + 1 => unclosed opens closes depth rest
    else unclosed opens closes depth rest

namespace Text

variable (t : Text) (opens closes : Char → Bool)

/-- The closer that balances the opener at `i`. -/
def closing? (i : Nat) : Option Nat :=
  match t.after i with
  | [] => none
  | c :: rest =>
    if opens c then (exitOffset opens closes (fun _ => false) 0 rest).map (i + 1 + ·) else none

/-- The openers of the groups that `i` sits in, innermost first. -/
def groupsAround (i : Nat) : List Nat := unclosed opens closes 0 (t.before i)

/-- The opener of the innermost group that `i` sits in. -/
def unclosedBefore? (i : Nat) : Option Nat := (t.groupsAround opens closes i).head?

/-- The opener that balances the closer at `i`. -/
def opening? (i : Nat) : Option Nat :=
  if t.nextIs closes i then t.unclosedBefore? opens closes i else none

end Text

/-! ## Laws -/

theorem exitOffset_lt {α : Type} {enter leave stop : α → Bool} {depth n : Nat} {as : List α}
    (h : exitOffset enter leave stop depth as = some n) : n < as.length := by
  fun_induction exitOffset enter leave stop depth as generalizing n with
  | case1 => cases h
  | case2 depth a rest _ ih =>
    obtain ⟨m, hm, rfl⟩ := Option.map_eq_some_iff.1 h
    have := ih hm; simp; omega
  | case3 => cases h; simp
  | case4 a rest _ _ depth ih =>
    obtain ⟨m, hm, rfl⟩ := Option.map_eq_some_iff.1 h
    have := ih hm; simp; omega
  | case5 => cases h; simp
  | case6 depth a rest _ _ _ ih =>
    obtain ⟨m, hm, rfl⟩ := Option.map_eq_some_iff.1 h
    have := ih hm; simp; omega

/-- A scan ends at once where its group is left, or at a stop. -/
theorem exitOffset_eq_zero {α : Type} {enter leave stop : α → Bool} {a : α} (rest : List α)
    (henter : enter a = false) (h : leave a = true ∨ stop a = true) :
    exitOffset enter leave stop 0 (a :: rest) = some 0 := by
  rw [exitOffset, henter]
  rcases h with hleave | hstop
  · simp [hleave]
  · simp [hstop]

theorem mem_unclosed_lt {α : Type} {opens closes : α → Bool} {depth n : Nat} {as : List α}
    (h : n ∈ unclosed opens closes depth as) : n < as.length := by
  fun_induction unclosed opens closes depth as with
  | case1 => simp at h
  | case2 depth a rest _ ih => have := ih h; simp; omega
  | case3 a rest _ _ ih =>
    rcases List.mem_cons.1 h with rfl | h
    · simp
    · have := ih h; simp; omega
  | case4 a rest _ _ depth ih => have := ih h; simp; omega
  | case5 depth a rest _ _ ih => have := ih h; simp; omega

theorem Text.mem_groupsAround_lt {t : Text} {opens closes : Char → Bool} {i o : Nat}
    (h : o ∈ t.groupsAround opens closes i) : o < i := by
  have := mem_unclosed_lt h
  rw [Text.length_before] at this
  omega

end VoiceEdit
