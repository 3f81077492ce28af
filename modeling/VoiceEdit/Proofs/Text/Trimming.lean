import Mathlib.Data.List.TakeWhile
import VoiceEdit.Text.Chunks

/-!
# What trimming leaves

White space at the ends makes no difference to a trimmed text. The bounds of a piece without
the white space at its ends, which are found from inside the text, depend on the piece alone:
they enclose the trimmed piece, which for a blank piece is nothing, at its end.

Results:

* `trim_append`, `trim_blank_append`, `trim_dropWhile`: white space at the ends.
* `exists_trim_append`: the white space that trimming drops.
* `trimmedBounds_append`: the bounds of a trimmed piece.
-/
namespace VoiceEdit.Text

open Unicode (isWhitespace)

variable {p : Char → Bool} {blank : Text}

/-! ## White space at the ends -/

theorem trim_blank_append (h : ∀ c ∈ blank, isWhitespace c = true) (a : Text) :
    trim (blank ++ a) = trim a := by
  rw [trim, trim, List.dropWhile_append_of_pos h]

theorem trim_append (a : Text) (h : ∀ c ∈ blank, isWhitespace c = true) :
    trim (a ++ blank) = trim a := by
  rw [trim, trim, List.dropWhile_append]
  split
  · rename_i hnil
    rw [List.isEmpty_iff.1 hnil, List.dropWhile_eq_nil_iff.2 h]
  · rw [List.reverse_append, List.dropWhile_append_of_pos fun c hc => h c (List.mem_reverse.1 hc)]

theorem all_takeWhile_of_imp {q : Char → Bool} (hpq : ∀ c, p c = true → q c = true)
    (xs : List Char) : ∀ c ∈ xs.takeWhile p, q c = true :=
  fun c hc => hpq c (List.all_eq_true.1 List.all_takeWhile c hc)

theorem trim_dropWhile (hp : ∀ c, p c = true → isWhitespace c = true) (a : Text) :
    trim (a.dropWhile p) = trim a := by
  rw [← trim_blank_append (all_takeWhile_of_imp hp a), List.takeWhile_append_dropWhile]

/-- A text is the white space it begins with, the trimmed text, and white space. -/
theorem exists_trim_append (a : Text) :
    ∃ trail, a = a.takeWhile isWhitespace ++ (trim a ++ trail) ∧
      (∀ c ∈ trail, isWhitespace c = true) ∧
      trail.length = ((a.dropWhile isWhitespace).reverse.takeWhile isWhitespace).length := by
  refine ⟨((a.dropWhile isWhitespace).reverse.takeWhile isWhitespace).reverse, ?_,
    fun c hc => ?_, ?_⟩
  · rw [trim, ← List.reverse_append, List.takeWhile_append_dropWhile, List.reverse_reverse,
      List.takeWhile_append_dropWhile]
  · exact all_takeWhile_of_imp (fun _ h => h) _ c (List.mem_reverse.1 hc)
  · rw [List.length_reverse]

/-! ## Bounds -/

/-- As much of a run as lies in a piece is a run of the piece. -/
theorem min_length_takeWhile_append (xs ys : List Char) :
    min ((xs ++ ys).takeWhile p).length xs.length = (xs.takeWhile p).length := by
  have hle := (List.takeWhile_prefix p (l := xs)).length_le
  rw [List.takeWhile_append]
  split
  · rename_i hall
    rw [hall, List.length_append]
    omega
  · omega

/-- The bounds of a piece of a text without the white space at its ends are found from the
piece alone. -/
theorem trimmedBounds_append (front a back : Text) :
    trimmedBounds (front ++ (a ++ back)) front.length (front.length + a.length) =
      (front.length + (a.takeWhile isWhitespace).length,
        front.length + (a.takeWhile isWhitespace).length + (trim a).length) := by
  obtain ⟨trail, htrail, -, hlen⟩ := exists_trim_append a
  have hafter : (front ++ (a ++ back)).after front.length = a ++ back := List.drop_left
  have hjoin := List.takeWhile_append_dropWhile (p := isWhitespace) (l := a)
  have hbefore : (front ++ (a ++ back)).before (front.length + a.length) =
      (a.dropWhile isWhitespace).reverse ++
        ((a.takeWhile isWhitespace).reverse ++ front.reverse) := by
    have hreverse := congrArg List.reverse hjoin
    rw [List.reverse_append] at hreverse
    rw [before, ← List.append_assoc, List.take_left' List.length_append, List.reverse_append,
      ← List.append_assoc, hreverse]
  have hfirst := min_length_takeWhile_append (p := isWhitespace) a back
  have hlast := min_length_takeWhile_append (p := isWhitespace) (a.dropWhile isWhitespace).reverse
    ((a.takeWhile isWhitespace).reverse ++ front.reverse)
  have hsplit := congrArg List.length hjoin
  have hparts := congrArg List.length htrail
  rw [List.length_append] at hsplit
  rw [List.length_append, List.length_append, hlen] at hparts
  rw [List.length_reverse] at hlast
  simp only [trimmedBounds, runAfter, runBefore, hafter, hbefore, Prod.mk.injEq]
  omega

end VoiceEdit.Text
