import VoiceEdit.Text.CharClass
import VoiceEdit.Text.Basic

/-!
# Cutting text up

`chunks p` cuts a text wherever `p` changes; `runs p` gives the offsets of the
maximal runs that satisfy `p`. Words, trimming and fragments come from the two.

Results:

* `flatten_chunks`: the chunks of a text make it up again.
* `mem_words`: a word is not empty and holds no white space.
* `mem_runs_bounds`: a run is not empty and lies in the text.
-/
namespace VoiceEdit.Text

open Unicode (isWhitespace)

/-- The longest pieces on each of which `p` is constant. -/
def chunks (p : Char → Bool) : List Char → List Text
  | [] => []
  | c :: rest =>
    match chunks p rest with
    | (d :: ds) :: more =>
      if p c == p d then (c :: d :: ds) :: more else [c] :: (d :: ds) :: more
    | more => [c] :: more

/-- Where the maximal runs of `p` start and stop, for a text that begins at offset `pos`. -/
def runsFrom (p : Char → Bool) (pos : Nat) : List Char → List (Nat × Nat)
  | [] => []
  | c :: rest =>
    if p c then
      match runsFrom p (pos + 1) rest with
      | [] => [(pos, pos + 1)]
      | (start, stop) :: more =>
        if start = pos + 1 then (pos, stop) :: more
        else (pos, pos + 1) :: (start, stop) :: more
    else runsFrom p (pos + 1) rest

/-- Where the maximal runs of `p` start and stop. -/
def runs (t : Text) (p : Char → Bool) : List (Nat × Nat) := runsFrom p 0 t

/-- The text without the white space at its ends. -/
def trim (t : Text) : Text :=
  ((t.dropWhile isWhitespace).reverse.dropWhile isWhitespace).reverse

/-- The pieces between white space. -/
def words (t : Text) : List Text :=
  (chunks isWhitespace t).filter fun w => !w.head?.any isWhitespace

/-- The span `start`..`stop` without the white space at its ends; blank ends give
way from the left. -/
def trimmedBounds (t : Text) (start stop : Nat) : Nat × Nat :=
  let first := start + min (t.runAfter isWhitespace start) (stop - start)
  (first, stop - min (t.runBefore isWhitespace stop) (stop - first))

/-- The runs of letters and digits of a token, whose underscores divide it. -/
def fragments (t : Text) (token : Span) : List Span :=
  (runsFrom isAlphanumeric token.start (t.slice token)).map fun (start, stop) =>
    (Span.spanning start stop).toOption.getD (.point start)

/-! ## Laws -/

theorem flatten_chunks (p : Char → Bool) (t : List Char) : (chunks p t).flatten = t := by
  fun_induction chunks p t with
  | case1 => rfl
  | case2 c rest d ds more heq h ih => rw [heq] at ih; simpa using ih
  | case3 c rest d ds more heq h ih => rw [heq] at ih; simpa using ih
  | case4 c rest _ ih => simp [ih]

/-- A chunk is not empty, and its characters are all in the class or all out of it. -/
theorem mem_chunks {p : Char → Bool} {t : List Char} {piece : Text} (h : piece ∈ chunks p t) :
    ∃ c rest, piece = c :: rest ∧ ∀ d ∈ rest, p d = p c := by
  fun_induction chunks p t generalizing piece with
  | case1 => cases h
  | case2 c rest d ds more heq hcd ih =>
    rw [heq] at ih
    rcases List.mem_cons.1 h with rfl | hmem
    · obtain ⟨d', ds', hhead, hds⟩ := ih List.mem_cons_self
      cases hhead
      refine ⟨c, d :: ds, rfl, fun e he => ?_⟩
      rw [eq_of_beq hcd]
      rcases List.mem_cons.1 he with rfl | he
      · rfl
      · exact hds e he
    · exact ih (List.mem_cons_of_mem _ hmem)
  | case3 c rest d ds more heq _ ih =>
    rw [heq] at ih
    rcases List.mem_cons.1 h with rfl | hmem
    · exact ⟨c, [], rfl, fun e he => by cases he⟩
    · exact ih hmem
  | case4 c rest _ ih =>
    rcases List.mem_cons.1 h with rfl | hmem
    · exact ⟨c, [], rfl, fun e he => by cases he⟩
    · exact ih hmem

/-- A word is not empty and holds no white space. -/
theorem mem_words {t w : Text} (h : w ∈ words t) : w ≠ [] ∧ ∀ c ∈ w, isWhitespace c = false := by
  obtain ⟨hchunk, hhead⟩ := List.mem_filter.1 h
  obtain ⟨c, rest, rfl, hrest⟩ := mem_chunks hchunk
  have hc : isWhitespace c = false := by simpa using hhead
  refine ⟨List.cons_ne_nil _ _, fun d hd => ?_⟩
  rcases List.mem_cons.1 hd with rfl | hd
  · exact hc
  · rw [hrest d hd, hc]

theorem dropWhile_eq_self {p : Char → Bool} {t : List Char} (h : ∀ c ∈ t, p c = false) :
    t.dropWhile p = t := by
  cases t with
  | nil => rfl
  | cons c rest => rw [List.dropWhile_cons_of_neg (by rw [h c List.mem_cons_self]; decide)]

/-- There is nothing to trim where there is no white space. -/
theorem trim_eq_self {t : Text} (h : ∀ c ∈ t, isWhitespace c = false) : t.trim = t := by
  have hreverse : ∀ c ∈ t.reverse, isWhitespace c = false := fun c hc => h c (List.mem_reverse.1 hc)
  rw [trim, dropWhile_eq_self h, dropWhile_eq_self hreverse, List.reverse_reverse]

theorem mem_runsFrom_bounds {p : Char → Bool} {pos : Nat} {t : List Char} {run : Nat × Nat}
    (h : run ∈ runsFrom p pos t) :
    pos ≤ run.1 ∧ run.1 < run.2 ∧ run.2 ≤ pos + t.length := by
  induction t generalizing pos run with
  | nil => simp [runsFrom] at h
  | cons c rest ih =>
    simp only [runsFrom] at h
    split at h
    · split at h
      · simp only [List.mem_singleton] at h; subst h; simp
      · rename_i start stop more heq
        have hfirst := ih (heq ▸ List.mem_cons_self : (start, stop) ∈ runsFrom p (pos + 1) rest)
        have hmore : ∀ r ∈ more, pos + 1 ≤ r.1 ∧ r.1 < r.2 ∧ r.2 ≤ pos + 1 + rest.length :=
          fun r hr => ih (heq ▸ List.mem_cons_of_mem _ hr)
        simp only at hfirst
        split at h
        · rcases List.mem_cons.1 h with rfl | h
          · simp; omega
          · have := hmore _ h; simp; omega
        · rcases List.mem_cons.1 h with rfl | h
          · simp
          · rcases List.mem_cons.1 h with rfl | h
            · simp; omega
            · have := hmore _ h; simp; omega
    · have := ih h; simp; omega

theorem mem_runs_bounds {t : Text} {p : Char → Bool} {run : Nat × Nat} (h : run ∈ t.runs p) :
    run.1 < run.2 ∧ run.2 ≤ t.length := by
  have := mem_runsFrom_bounds h
  omega

end VoiceEdit.Text
