import Mathlib.Order.Bounds.Basic
import VoiceEdit.Proofs.Code.Enclosing

/-!
# Matching from either side

The scan for a closer and the scan back for an opener count in opposite directions, and both find
what is a pair whatever stands around it, balanced or not. So each undoes the other. The scan back
from a place between ends at the last of the openers that the place is in the group of, which the
scans for their closers tell: each comes to the place or finds nothing.

Results:

* `Bracket.getElem?_marks`: what a mark is read off from.
* `Bracket.openPosition?_eq_some_iff`: the opener of a closing bracket is the other of its pair.
* `Bracket.closes_at_iff_opens_at`: closers from openers and openers from closers, for groups and for brackets.
* `Text.unclosedBefore?_isGreatest`: the innermost group around a place, by where groups close.
-/
namespace VoiceEdit

variable {t : Text} {opens closes : Char → Bool} {i o c : Nat}

/-! ## Brackets by their characters -/

namespace Bracket

variable {ms : List Mark} {b : Bracket}

/-- The character that opens a pair of this kind. -/
def opening : Bracket → Char
  | .round => '('
  | .square => '['
  | .curly => '{'
  | .angle => '<'

/-- The character that closes a pair of this kind. -/
def closing : Bracket → Char
  | .round => ')'
  | .square => ']'
  | .curly => '}'
  | .angle => '>'

/-- The angle bracket at `i` belongs to a comparison or an arrow. -/
def IsComparison (t : Text) (i : Nat) : Prop :=
  (t[i]? = some '<' ∧ t[i + 1]? = some ' ') ∨
    (t[i]? = some '>' ∧ (t.prev? i).any (fun p => p == ' ' || p == '-' || p == '=') = true)

instance (t : Text) (i : Nat) : Decidable (IsComparison t i) := inferInstanceAs (Decidable (_ ∨ _))

theorem getElem?_marksFrom (prev : Option Char) (t : Text) (i : Nat) : (marksFrom prev t)[i]? =
    t[i]?.map (mark (if i = 0 then prev else t[i - 1]?) · t[i + 1]?) := by
  induction t generalizing prev i with
  | nil => simp [marksFrom]
  | cons c rest ih =>
    cases i with
    | zero => simp [marksFrom, List.head?_eq_getElem?]
    | succ i =>
      rw [marksFrom, List.getElem?_cons_succ, ih, List.getElem?_cons_succ]
      cases i with
      | zero => simp
      | succ i => simp

/-- A mark is read off from its character and the characters next to it. -/
theorem getElem?_marks (t : Text) (i : Nat) :
    (marks t)[i]? = t[i]?.map (mark (t.prev? i) · t[i + 1]?) := getElem?_marksFrom none t i

theorem getElem?_marks_opening (ho : t[o]? = some b.opening) (h : ¬IsComparison t o) :
    (marks t)[o]? = some (.opens b) := by
  rw [getElem?_marks, ho, Option.map_some]
  cases b with
  | round | square | curly => rfl
  | angle =>
    have hnext : t[o + 1]? ≠ some ' ' := fun hnext => h (.inl ⟨ho, hnext⟩)
    exact congrArg some (if_neg hnext)

theorem getElem?_marks_closing (hc : t[c]? = some b.closing) (h : ¬IsComparison t c) :
    (marks t)[c]? = some (.closes b) := by
  rw [getElem?_marks, hc, Option.map_some]
  cases b with
  | round | square | curly => rfl
  | angle =>
    have hprev := fun hprev => h (.inr ⟨hc, hprev⟩)
    exact congrArg some (if_neg hprev)

/-! ## Closers from openers, and openers from closers -/

/-- The opener of a closing bracket is the other of its pair. -/
theorem openPosition?_eq_some_iff (hc : ms[c]? = some (.closes b)) :
    openPosition? b (ms.take c).reverse = some o ↔ Pairs b.isOpener b.isCloser ms o c :=
  (pairs_iff_head?_unclosed (not_isCloser_of_isOpener b)
    (by rw [hc]; exact beq_self_eq_true _)).symm

/-- **Matching from either side.** Whatever opens groups and whatever else closes them, and in any
text, the closer that is found from an opener is the one that this opener is found from. The same
holds of the brackets of each kind, those of comparisons and arrows left out. -/
theorem closes_at_iff_opens_at (t : Text) :
    (∀ opens closes : Char → Bool, (∀ c, opens c = true → closes c = false) → ∀ o c,
      t.closing? opens closes o = some c ↔ t.opening? opens closes c = some o) ∧
    ∀ (b : Bracket) (o c : Nat), t[o]? = some b.opening → ¬IsComparison t o →
      t[c]? = some b.closing → ¬IsComparison t c →
      ((closeOffset? b ((marks t).drop (o + 1))).map (o + 1 + ·) = some c ↔
        openPosition? b ((marks t).take c).reverse = some o) := by
  constructor
  · intro opens closes hdisjoint o c
    rw [Text.closing?_eq_some_iff hdisjoint, Text.opening?_eq_some_iff hdisjoint]
  · intro b o c ho hopens hc hcloses
    rw [closeOffset?_eq_some_iff (getElem?_marks_opening ho hopens),
      openPosition?_eq_some_iff (getElem?_marks_closing hc hcloses)]

/-- In `a<b(c > d)>` the angle brackets are a pair across a comparison. -/
theorem closes_at_iff_opens_at_angle :
    let t : Text := ['a', '<', 'b', '(', 'c', ' ', '>', ' ', 'd', ')', '>']
    (∀ c, isOpenGroup c = true → isCloseGroup c = false) ∧
      t.closing? isOpenGroup isCloseGroup 3 = some 9 ∧ t.opening? isOpenGroup isCloseGroup 9 = some 3 ∧
      t[1]? = some angle.opening ∧ ¬IsComparison t 1 ∧ t[10]? = some angle.closing ∧
      ¬IsComparison t 10 ∧ IsComparison t 6 ∧
      (closeOffset? angle ((marks t).drop (1 + 1))).map (1 + 1 + ·) = some 10 ∧
      openPosition? angle ((marks t).take 10).reverse = some 1 := by
  intro t
  obtain ⟨hgroups, hbrackets⟩ := closes_at_iff_opens_at t
  have hdisjoint (c : Char) (h : isOpenGroup c = true) : isCloseGroup c = false :=
    not_isCloseGroup_of_isOpenGroup h
  have hgroup : t.closing? isOpenGroup isCloseGroup 3 = some 9 := by decide
  have hangle : (closeOffset? angle ((marks t).drop (1 + 1))).map (1 + 1 + ·) = some 10 := by decide
  exact ⟨hdisjoint, hgroup, (hgroups _ _ hdisjoint 3 9).1 hgroup, rfl, by decide, rfl, by decide,
    by decide, hangle, (hbrackets angle 1 10 rfl (by decide) rfl (by decide)).1 hangle⟩

end Bracket

/-! ## The innermost group -/

/-- Of a list that falls, the head is the greatest element. -/
theorem head?_eq_some_iff_isGreatest {as : List Nat} {a : Nat} (has : as.Pairwise (· > ·)) :
    as.head? = some a ↔ IsGreatest {b | b ∈ as} a := by
  cases as with
  | nil => exact iff_of_false nofun fun h => by cases h.1
  | cons b rest =>
    have hrest := (List.pairwise_cons.1 has).1
    have hb : IsGreatest {x | x ∈ b :: rest} b := by
      refine ⟨List.mem_cons_self, fun x hx => ?_⟩
      rcases List.mem_cons.1 hx with rfl | hx
      · exact Nat.le_refl x
      · exact Nat.le_of_lt (hrest x hx)
    rw [List.head?_cons, Option.some.injEq]
    exact ⟨fun h => h ▸ hb, hb.unique⟩

namespace Text

/-- The opener at `o` stands before `i`, and its closer, if it has one, does not. -/
structure LeftOpen (t : Text) (opens closes : Char → Bool) (i o : Nat) : Prop where
  lt : o < i
  opener : t.nextIs opens o = true
  le_closer : ∀ c, t.closing? opens closes o = some c → i ≤ c

/-- No place lies behind the end of the text. -/
theorem groupsAround_min (t : Text) (opens closes : Char → Bool) (i : Nat) :
    t.groupsAround opens closes (min i t.length) = t.groupsAround opens closes i := by
  rw [groupsAround, groupsAround, before, before, ← List.take_eq_take_min]

theorem mem_groupsAround_iff_leftOpen (hdisjoint : ∀ c, opens c = true → closes c = false) :
    o ∈ t.groupsAround opens closes i ↔ LeftOpen t opens closes (min i t.length) o := by
  rw [← groupsAround_min, mem_groupsAround_iff hdisjoint]
  exact ⟨fun ⟨hlt, hopens, hle⟩ => ⟨hlt, hopens, hle⟩, fun h => ⟨h.lt, h.opener, h.le_closer⟩⟩

/-- **The innermost group.** Whatever opens groups and whatever else closes them, the group that a
place sits in, which reading backwards finds, is the one that opens last among those whose closer
does not stand before the place; it sits in none if there is no such opener. A place behind the
text is at its end. -/
theorem unclosedBefore?_isGreatest (hdisjoint : ∀ c, opens c = true → closes c = false)
    (t : Text) (i : Nat) :
    (∀ o, t.unclosedBefore? opens closes i = some o ↔
      IsGreatest {o | LeftOpen t opens closes (min i t.length) o} o) ∧
    (t.unclosedBefore? opens closes i = none ↔
      ∀ o, ¬LeftOpen t opens closes (min i t.length) o) := by
  have hmem : {o | LeftOpen t opens closes (min i t.length) o} =
      {o | o ∈ t.groupsAround opens closes i} :=
    Set.ext fun _ => (mem_groupsAround_iff_leftOpen hdisjoint).symm
  constructor
  · intro o
    rw [hmem]
    exact head?_eq_some_iff_isGreatest (pairwise_unclosed _ _ _ _)
  · rw [unclosedBefore?, List.head?_eq_none_iff, List.eq_nil_iff_forall_not_mem]
    exact forall_congr' fun o => not_congr (mem_groupsAround_iff_leftOpen hdisjoint)

/-- In `) { (a] [b`, where nothing is balanced but the innermost group. -/
theorem unclosedBefore?_isGreatest_unbalanced :
    let t : Text := [')', ' ', '{', ' ', '(', 'a', ']', ' ', '[', 'b']
    (∀ c, isOpenGroup c = true → isCloseGroup c = false) ∧
      t.unclosedBefore? isOpenGroup isCloseGroup 8 = some 2 ∧
      IsGreatest {o | LeftOpen t isOpenGroup isCloseGroup 8 o} 2 ∧
      t.unclosedBefore? isOpenGroup isCloseGroup 12 = some 8 ∧
      IsGreatest {o | LeftOpen t isOpenGroup isCloseGroup 10 o} 8 ∧
      t.unclosedBefore? isOpenGroup isCloseGroup 2 = none ∧
      ∀ o, ¬LeftOpen t isOpenGroup isCloseGroup 2 o := by
  intro t
  have hdisjoint (c : Char) (h : isOpenGroup c = true) : isCloseGroup c = false :=
    not_isCloseGroup_of_isOpenGroup h
  have hcurly : t.unclosedBefore? isOpenGroup isCloseGroup 8 = some 2 := by decide
  have hsquare : t.unclosedBefore? isOpenGroup isCloseGroup 12 = some 8 := by decide
  have hnone : t.unclosedBefore? isOpenGroup isCloseGroup 2 = none := by decide
  exact ⟨hdisjoint, hcurly, ((unclosedBefore?_isGreatest hdisjoint t 8).1 2).1 hcurly,
    hsquare, ((unclosedBefore?_isGreatest hdisjoint t 12).1 8).1 hsquare,
    hnone, (unclosedBefore?_isGreatest hdisjoint t 2).2.1 hnone⟩

end Text

end VoiceEdit
