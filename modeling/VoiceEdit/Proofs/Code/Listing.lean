import VoiceEdit.Proofs.Code.Rest
import VoiceEdit.Proofs.Text.Depth
import VoiceEdit.Proofs.Text.Trimming

/-!
# Lists of arguments

The arguments of a call are listed between its parentheses, with a separator after each but
the last. An argument may be blank, and may hold calls and separators of its own as long as
the groups in it are balanced and hold the separators. `Lists as cs` says that `cs` lists
the arguments `as`; taking an argument away with one separator leaves a list of the others.

Results:

* `isArgument_iff`, `isArgument_append`, `IsArgument.split`: an argument is what the scans for
  its ends pass, and it may be cut where no group is open.
* `Lists.stands`: every argument that is listed stands between two that bound it.
* `Lists.exists_tail`, `Lists.exists_eraseIdx`: a list without one of its arguments.
-/
namespace VoiceEdit.Argument

open Unicode (isWhitespace)

variable {t a b cs blank : Text} {as : List Text} {first i k : Nat}

/-! ## Arguments -/

/-- The groups are balanced, brackets of all kinds counted alike: none closes that has not
opened, and in the end all are closed. -/
def Balanced (a : Text) : Prop :=
  depthAfter isOpenGroup isCloseGroup (fun _ => false) 0 a = some 0

instance (a : Text) : Decidable (Balanced a) := inferInstanceAs (Decidable (_ = _))

/-- The groups are balanced, and every separator lies in one of them. -/
structure IsArgument (a : Text) : Prop where
  balanced : Balanced a
  separators_nested : ∀ k, a.nextIs isSeparator k = true → ¬Balanced (a.take k)

/-- An argument is what the scan for its end passes. -/
theorem isArgument_iff :
    IsArgument a ↔ depthAfter isOpenGroup isCloseGroup isSeparator 0 a = some 0 := by
  rw [depthAfter_eq_some_iff fun _ => not_group_of_isSeparator]
  exact ⟨fun h => ⟨h.balanced, h.separators_nested⟩, fun h => ⟨h.1, h.2⟩⟩

instance (a : Text) : Decidable (IsArgument a) := decidable_of_iff _ isArgument_iff.symm

/-- Behind an argument, another goes on as it would without. -/
theorem isArgument_append (h : IsArgument a) : IsArgument (a ++ b) ↔ IsArgument b := by
  rw [isArgument_iff, depthAfter_append, isArgument_iff.1 h, Option.bind_some, ← isArgument_iff]

/-- An argument may be cut in two where no group is open. -/
theorem IsArgument.split (h : IsArgument a) (hk : Balanced (a.take k)) :
    IsArgument (a.take k) ∧ IsArgument (a.drop k) := by
  have hpass := isArgument_iff.1 h
  rw [← List.take_append_drop k a, depthAfter_append] at hpass
  obtain ⟨e, htake, -⟩ := Option.bind_eq_some_iff.1 hpass
  obtain ⟨hdepth, hnested⟩ := (depthAfter_eq_some_iff fun _ => not_group_of_isSeparator).1 htake
  have hnear : IsArgument (a.take k) := ⟨hk, hnested⟩
  refine ⟨hnear, (isArgument_append hnear).1 ?_⟩
  rwa [List.take_append_drop]

/-- White space is an argument, one that is blank. -/
theorem isArgument_of_blank (h : ∀ c ∈ blank, isWhitespace c = true) : IsArgument blank := by
  rw [isArgument_iff]
  induction blank with
  | nil => rfl
  | cons c blank ih =>
    obtain ⟨hopen, hclose, hsep⟩ := plain_of_isWhitespace (h c List.mem_cons_self)
    have hstep : depthStep isOpenGroup isCloseGroup isSeparator 0 c = some 0 := by
      simp [depthStep, hopen, hclose, hsep]
    rw [depthAfter_cons, hstep, Option.bind_some]
    exact ih fun c hc => h c (List.mem_cons_of_mem _ hc)

/-! ## Lists -/

/-- The arguments are listed, with a separator after each but the last. -/
inductive Lists : List Text → Text → Prop
  | last {a : Text} (h : IsArgument a) : Lists [a] a
  | cons {a cs : Text} {as : List Text} {d : Char} (h : IsArgument a) (hd : isSeparator d = true)
      (hrest : Lists as cs) : Lists (a :: as) (a ++ d :: cs)

/-- Where in the list the argument with this number starts. -/
def startIn : List Text → Nat → Nat
  | a :: as, i + 1 => a.length + 1 + startIn as i
  | _, _ => 0

@[simp] theorem startIn_zero (as : List Text) : startIn as 0 = 0 := by
  cases as <;> rfl

theorem startIn_succ (ha : as[i]? = some a) : startIn as (i + 1) = startIn as i + a.length + 1 := by
  induction as generalizing i with
  | nil => cases ha
  | cons b as ih =>
    cases i with
    | zero =>
      cases ha
      simp [startIn]
    | succ i =>
      rw [startIn, ih ha, startIn]
      omega

theorem Lists.startIn_length (h : Lists as cs) : startIn as as.length = cs.length + 1 := by
  induction h with
  | last _ => rfl
  | cons _ _ _ ih =>
    rw [List.length_cons, startIn, ih, List.length_append, List.length_cons]
    omega

/-- The text at `first` is `a`, between parentheses of a call or separators. -/
structure Stands (t : Text) (first : Nat) (a : Text) : Prop where
  isArgument : IsArgument a
  bounded : ∃ front o c back, t = front ++ o :: (a ++ c :: back) ∧ front.length + 1 = first ∧
    (o = '(' ∨ isSeparator o = true) ∧ (c = ')' ∨ isSeparator c = true)

/-- What is listed between two characters that bound an argument stands there one by one. -/
theorem Lists.stands {o c : Char} (h : Lists as cs) (front back : Text)
    (ho : o = '(' ∨ isSeparator o = true) (hc : c = ')' ∨ isSeparator c = true)
    (ha : as[i]? = some a) :
    Stands (front ++ o :: (cs ++ c :: back)) (front.length + 1 + startIn as i) a := by
  induction h generalizing front o i with
  | last h =>
    cases i with
    | succ i => cases ha
    | zero =>
      cases ha
      exact ⟨h, front, o, c, back, rfl, rfl, ho, hc⟩
  | @cons a₀ cs as d h hd hrest ih =>
    cases i with
    | zero =>
      cases ha
      refine ⟨h, front, o, d, cs ++ c :: back, ?_, rfl, ho, .inr hd⟩
      rw [List.append_assoc, List.cons_append]
    | succ i =>
      have hstands := ih (front ++ o :: a₀) (.inr hd) ha
      have htext : front ++ o :: (a₀ ++ d :: cs ++ c :: back) =
          front ++ o :: a₀ ++ d :: (cs ++ c :: back) := by
        rw [List.append_assoc, List.append_assoc, List.cons_append, List.cons_append]
      have hfirst : front.length + 1 + startIn (a₀ :: as) (i + 1) =
          (front ++ o :: a₀).length + 1 + startIn as i := by
        rw [startIn, List.length_append, List.length_cons]
        omega
      rw [htext, hfirst]
      exact hstands

/-! ## Lists without one of their arguments -/

theorem not_isBlank_of_isSeparator {c : Char} (h : isSeparator c = true) : isBlank c = false := by
  refine eq_false_of_ne_true fun hblank => ?_
  rw [(plain_of_isWhitespace (isWhitespace_of_isBlank hblank)).2.2] at h
  cases h

/-- Other white space may stand before the first argument. -/
theorem IsArgument.reblank (h : IsArgument a) (hblank : ∀ c ∈ blank, isWhitespace c = true) :
    IsArgument (blank ++ a.dropWhile isBlank) := by
  have hlead := Text.all_takeWhile_of_imp (p := isBlank) (fun _ => isWhitespace_of_isBlank) a
  rw [isArgument_append (isArgument_of_blank hblank), ← isArgument_append (isArgument_of_blank hlead),
    List.takeWhile_append_dropWhile]
  exact h

theorem trim_reblank (hblank : ∀ c ∈ blank, isWhitespace c = true) (a : Text) :
    Text.trim (blank ++ a.dropWhile isBlank) = Text.trim a := by
  rw [Text.trim_blank_append hblank, Text.trim_dropWhile fun _ => isWhitespace_of_isBlank]

/-- What is left of a list when its first argument goes with the separator and the blanks
behind it. -/
theorem Lists.exists_tail (h : Lists as cs) (hblank : ∀ c ∈ blank, isWhitespace c = true) :
    ∃ as', Lists as' (blank ++ cs.dropWhile isBlank) ∧ as'.map Text.trim = as.map Text.trim := by
  cases h with
  | last h =>
    refine ⟨[blank ++ cs.dropWhile isBlank], .last (h.reblank hblank), ?_⟩
    rw [List.map_singleton, List.map_singleton, trim_reblank hblank]
  | @cons a cs as d h hd hrest =>
    have hdrop : (a ++ d :: cs).dropWhile isBlank = a.dropWhile isBlank ++ d :: cs := by
      have hstop : ¬isBlank d = true := ne_true_of_eq_false (not_isBlank_of_isSeparator hd)
      rw [List.dropWhile_append, List.dropWhile_cons_of_neg hstop]
      split
      · rename_i hnil
        rw [List.isEmpty_iff.1 hnil, List.nil_append]
      · rfl
    refine ⟨(blank ++ a.dropWhile isBlank) :: as, ?_, ?_⟩
    · rw [hdrop, ← List.append_assoc]
      exact .cons (h.reblank hblank) hd hrest
    · rw [List.map_cons, List.map_cons, trim_reblank hblank]

/-- A later argument of a list stands behind a separator, and what is left when it goes with
that separator, but for the white space behind it, is a list of the others. -/
theorem Lists.exists_eraseIdx (h : Lists as cs) (ha : as[i + 1]? = some a) :
    ∃ front d back, cs = front ++ d :: (a ++ back) ∧ isSeparator d = true ∧
      front.length + 1 = startIn as (i + 1) ∧
      ∀ blank : Text, (∀ c ∈ blank, isWhitespace c = true) →
        ∃ as', Lists as' (front ++ (blank ++ back)) ∧
          as'.map Text.trim = (as.eraseIdx (i + 1)).map Text.trim := by
  induction h generalizing i with
  | last h => cases ha
  | @cons a₀ cs as d h hd hrest ih =>
    cases i with
    | succ i =>
      obtain ⟨front, d', back, rfl, hd', hlen, hleft⟩ := ih ha
      refine ⟨a₀ ++ d :: front, d', back, ?_, hd', ?_, fun blank hblank => ?_⟩
      · rw [List.append_assoc, List.cons_append]
      · rw [startIn, ← hlen, List.length_append, List.length_cons]
        omega
      · obtain ⟨as', hlists, htrim⟩ := hleft blank hblank
        refine ⟨a₀ :: as', ?_, ?_⟩
        · rw [List.append_assoc, List.cons_append]
          exact .cons h hd hlists
        · rw [List.map_cons, htrim, List.eraseIdx_cons_succ, List.map_cons]
    | zero =>
      have hjoin (blank : Text) (hblank : ∀ c ∈ blank, isWhitespace c = true) :
          IsArgument (a₀ ++ blank) ∧ Text.trim (a₀ ++ blank) = Text.trim a₀ :=
        ⟨(isArgument_append h).2 (isArgument_of_blank hblank), Text.trim_append a₀ hblank⟩
      cases hrest with
      | last _ =>
        cases ha
        refine ⟨a₀, d, [], by rw [List.append_nil], hd, rfl, fun blank hblank => ?_⟩
        obtain ⟨harg, htrim⟩ := hjoin blank hblank
        refine ⟨[a₀ ++ blank], ?_, ?_⟩
        · rw [List.append_nil]
          exact .last harg
        · rw [List.eraseIdx_cons_succ, List.eraseIdx_cons_zero, List.map_singleton,
            List.map_singleton, htrim]
      | @cons a₁ cs as d' _ hd' hrest =>
        cases ha
        refine ⟨a₀, d, d' :: cs, rfl, hd, rfl, fun blank hblank => ?_⟩
        obtain ⟨harg, htrim⟩ := hjoin blank hblank
        refine ⟨(a₀ ++ blank) :: as, ?_, ?_⟩
        · rw [← List.append_assoc]
          exact .cons harg hd' hrest
        · rw [List.eraseIdx_cons_succ, List.eraseIdx_cons_zero, List.map_cons, List.map_cons, htrim]

end VoiceEdit.Argument
