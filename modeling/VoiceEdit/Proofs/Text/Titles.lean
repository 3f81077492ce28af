import VoiceEdit.Proofs.Text.Uppercase

/-!
# Titles

A text is cut into pieces that are in turn white space and words, and a title has the same pieces of
white space and as many words. So a second title is made of the words of the first one, word by word.
The first word is left as it is. Of each other word it is asked again whether it is a minor word, and
in capitals or small letters it may be one where it was none before, or the other way round: the
classes are told by the case of ASCII letters, and the words are written in the case of any letter.

Results:

* `alternates_chunks`, `chunks_flatten`: pieces that alternate are the chunks of the text they make up.
* `chunks_titleCase`: the chunks of a title are those of the text, each as the title has it.
* `titled_titled_iff`: which words a second title leaves as they are.
* `titleCase_titleCase_iff`: which texts.
-/
namespace VoiceEdit.Text

open Unicode (isWhitespace upperOf lowerOf)

variable {p : Char → Bool} {q : Bool} {pieces : List Text} {piece w w' t : Text} {minor : List Text}
  {n : Nat}

/-! ## Pieces in turn -/

/-- The pieces are in turn in the class and out of it, none of them empty. -/
def Alternates (p : Char → Bool) : Bool → List Text → Prop
  | _, [] => True
  | q, piece :: rest => piece ≠ [] ∧ (∀ c ∈ piece, p c = q) ∧ Alternates p (!q) rest

theorem any_head?_of_forall (hne : piece ≠ []) (h : ∀ c ∈ piece, p c = q) : piece.head?.any p = q := by
  cases piece with
  | nil => exact absurd rfl hne
  | cons c rest => exact h c List.mem_cons_self

/-- The chunks of a text alternate, beginning with the class of its first character. -/
theorem alternates_chunks (p : Char → Bool) (t : Text) : Alternates p (t.head?.any p) (chunks p t) := by
  fun_induction chunks p t with
  | case1 => trivial
  | case2 c rest d ds more heq hcd ih =>
    rw [heq] at ih
    obtain ⟨-, hall, hmore⟩ := ih
    have hd : p d = p c := (eq_of_beq hcd).symm
    have hclass : rest.head?.any p = p c := (hall d List.mem_cons_self).symm.trans hd
    rw [hclass] at hall hmore
    refine ⟨List.cons_ne_nil _ _, fun e he => ?_, hmore⟩
    rcases List.mem_cons.1 he with rfl | he
    · rfl
    · exact hall e he
  | case3 c rest d ds more heq hcd ih =>
    rw [heq] at ih
    have hclass : rest.head?.any p = !p c := by
      rw [← ih.2.1 d List.mem_cons_self]
      exact Bool.eq_not.2 fun hsame => hcd (by rw [hsame]; exact beq_self_eq_true _)
    rw [hclass] at ih
    exact ⟨List.cons_ne_nil _ _, fun e he => by rw [List.mem_singleton.1 he]; rfl, ih⟩
  | case4 c rest hnot ih =>
    have hnil : chunks p rest = [] := by
      cases hchunks : chunks p rest with
      | nil => rfl
      | cons piece more =>
        rw [hchunks] at ih
        obtain ⟨d, ds, rfl⟩ := List.exists_cons_of_ne_nil ih.1
        exact absurd hchunks (hnot d ds more)
    rw [hnil]
    exact ⟨List.cons_ne_nil _ _, fun e he => by rw [List.mem_singleton.1 he]; rfl, trivial⟩

/-- The first chunk begins where the text does. -/
theorem exists_chunks_cons (p : Char → Bool) (c : Char) (rest : Text) :
    ∃ cs more, chunks p (c :: rest) = (c :: cs) :: more := by
  rw [chunks]
  split
  · split
    · exact ⟨_, _, rfl⟩
    · exact ⟨_, _, rfl⟩
  · exact ⟨_, _, rfl⟩

/-- A piece in front of a text that goes on with the other class is its first chunk. -/
theorem chunks_append (hne : piece ≠ []) (hpiece : ∀ c ∈ piece, p c = q)
    (ht : ∀ c ∈ t.head?, p c = !q) : chunks p (piece ++ t) = piece :: chunks p t := by
  induction piece with
  | nil => exact absurd rfl hne
  | cons c rest ih =>
    have hc : p c = q := hpiece c List.mem_cons_self
    cases rest with
    | nil =>
      cases t with
      | nil => rfl
      | cons d ds =>
        obtain ⟨es, more, heq⟩ := exists_chunks_cons p d ds
        have hd : ¬(p c == p d) = true := by
          rw [hc, ht d rfl]
          simp
        rw [List.singleton_append, chunks, heq]
        exact if_neg hd
    | cons d ds =>
      have hd : (p c == p d) = true := by
        rw [hc, hpiece d (List.mem_cons_of_mem _ List.mem_cons_self)]
        exact beq_self_eq_true q
      rw [List.cons_append, chunks,
        ih (List.cons_ne_nil _ _) fun e he => hpiece e (List.mem_cons_of_mem _ he)]
      exact if_pos hd

/-- Pieces that alternate are the chunks of the text they make up. -/
theorem chunks_flatten (h : Alternates p q pieces) : chunks p pieces.flatten = pieces := by
  induction pieces generalizing q with
  | nil => rfl
  | cons piece rest ih =>
    obtain ⟨hne, hpiece, hrest⟩ := h
    have hhead : ∀ c ∈ rest.flatten.head?, p c = !q := by
      cases rest with
      | nil => nofun
      | cons next rest =>
        obtain ⟨d, ds, rfl⟩ := List.exists_cons_of_ne_nil hrest.1
        rintro _ ⟨⟩
        exact hrest.2.1 d List.mem_cons_self
    rw [List.flatten_cons, chunks_append hne hpiece hhead, ih hrest]

/-! ## Words -/

/-- The word is one of the minor words, up to the case of ASCII letters. -/
def isMinor (minor : List Text) (w : Text) : Bool := minor.any (equalsIgnoringAsciiCase · w)

/-- A word as a title has it. Only a later one, behind the first, can be a minor word there. -/
def titled (minor : List Text) (later : Bool) (w : Text) : Text :=
  if later && isMinor minor w then w.lowerChars else w.capitalizeFirst

/-- A second title writes the word as the first one does: it is a minor word again, or again none,
or the other case leaves it as it is. -/
structure Settled (minor : List Text) (w : Text) : Prop where
  small : isMinor minor w = true →
    isMinor minor w.lowerChars = true ∨ ∀ c ∈ w.lowerChars.head?, upperOf c = [c]
  capital : isMinor minor w = false →
    isMinor minor w.capitalizeFirst = false ∨ ∀ c ∈ w.capitalizeFirst, lowerOf c = [c]

instance (minor : List Text) (w : Text) : Decidable (Settled minor w) :=
  decidable_of_iff ((isMinor minor w = true → isMinor minor w.lowerChars = true ∨
        w.lowerChars.head?.all (fun c => upperOf c == [c]) = true) ∧
      (isMinor minor w = false → isMinor minor w.capitalizeFirst = false ∨
        w.capitalizeFirst.all (fun c => lowerOf c == [c]) = true))
    ⟨fun ⟨h₁, h₂⟩ => ⟨by simpa [Option.all_eq_true] using h₁, by simpa using h₂⟩,
      fun h => ⟨by simpa [Option.all_eq_true] using h.small, by simpa using h.capital⟩⟩

theorem titled_of_isMinor (h : isMinor minor w = true) : titled minor true w = w.lowerChars := by
  rw [titled, h]
  rfl

theorem titled_of_not_isMinor (h : isMinor minor w = false) (later : Bool) :
    titled minor later w = w.capitalizeFirst := by
  rw [titled, h, Bool.and_false]
  rfl

/-- The words that a second title leaves as they are. -/
theorem titled_titled_iff :
    titled minor true (titled minor true w) = titled minor true w ↔ Settled minor w := by
  cases hminor : isMinor minor w with
  | true =>
    have hiff : titled minor true w.lowerChars = w.lowerChars ↔
        isMinor minor w.lowerChars = true ∨ ∀ c ∈ w.lowerChars.head?, upperOf c = [c] := by
      cases hagain : isMinor minor w.lowerChars with
      | true => simp [titled_of_isMinor hagain, lowerChars_lowerChars]
      | false => simp [titled_of_not_isMinor hagain, capitalizeFirst_eq_self_iff]
    rw [titled_of_isMinor hminor, hiff]
    exact ⟨fun h => ⟨fun _ => h, fun hnot => by simp [hminor] at hnot⟩, fun h => h.small hminor⟩
  | false =>
    have hiff : titled minor true w.capitalizeFirst = w.capitalizeFirst ↔
        isMinor minor w.capitalizeFirst = false ∨ ∀ c ∈ w.capitalizeFirst, lowerOf c = [c] := by
      cases hagain : isMinor minor w.capitalizeFirst with
      | true => simp [titled_of_isMinor hagain, lowerChars_eq_self_iff]
      | false => simp [titled_of_not_isMinor hagain, capitalizeFirst_capitalizeFirst]
    rw [titled_of_not_isMinor hminor, hiff]
    exact ⟨fun h => ⟨fun hnot => by simp [hminor] at hnot, fun _ => h⟩, fun h => h.capital hminor⟩

/-- The first word is capitalised, and that once and for all. -/
theorem titled_first (minor : List Text) (w : Text) :
    titled minor false (titled minor false w) = titled minor false w :=
  capitalizeFirst_capitalizeFirst w

/-- A word stays a word. -/
theorem titled_word (minor : List Text) (later : Bool) (hne : w ≠ []) (h : ∀ c ∈ w, isWhitespace c = false) :
    titled minor later w ≠ [] ∧ ∀ c ∈ titled minor later w, isWhitespace c = false := by
  obtain ⟨c, rest, rfl⟩ := List.exists_cons_of_ne_nil hne
  have hc := h c List.mem_cons_self
  unfold titled
  split
  · refine ⟨fun hnil => Unicode.lowerOf_ne_nil c (List.append_eq_nil_iff.1 hnil).1, fun d hd => ?_⟩
    obtain ⟨e, he, hd⟩ := List.mem_flatMap.1 hd
    exact Unicode.isWhitespace_of_mem_lowerOf (h e he) hd
  · refine ⟨fun hnil => Unicode.upperOf_ne_nil c (List.append_eq_nil_iff.1 hnil).1, fun d hd => ?_⟩
    rcases List.mem_append.1 hd with hd | hd
    · exact Unicode.isWhitespace_of_mem_upperOf hc hd
    · exact h d (List.mem_cons_of_mem _ hd)

/-- Words that differ in the case of ASCII letters only are minor words both or neither. -/
theorem isMinor_congr (h : w.map Char.toLower = w'.map Char.toLower) :
    isMinor minor w = isMinor minor w' := by
  simp only [isMinor, equalsIgnoringAsciiCase, h]

/-- The case of ASCII characters. -/
theorem ascii_case : ∀ n < 128, upperOf (Char.ofNat n) = [(Char.ofNat n).toUpper] ∧
    lowerOf (Char.ofNat n) = [(Char.ofNat n).toLower] ∧
    (Char.ofNat n).toUpper.toLower = (Char.ofNat n).toLower ∧
    (Char.ofNat n).toLower.toLower = (Char.ofNat n).toLower := by decide +kernel

theorem map_toLower_lowerChars (h : ∀ c ∈ w, c.toNat < 128) :
    w.lowerChars.map Char.toLower = w.map Char.toLower := by
  have hlower : w.lowerChars = w.flatMap fun c => [c.toLower] := by
    refine List.flatMap_congr fun c hc => ?_
    have hcase := (ascii_case c.toNat (h c hc)).2.1
    rwa [Char.ofNat_toNat] at hcase
  rw [hlower, List.map_flatMap, List.map_eq_flatMap]
  refine List.flatMap_congr fun c hc => ?_
  have hcase := (ascii_case c.toNat (h c hc)).2.2.2
  rw [Char.ofNat_toNat] at hcase
  rw [List.map_singleton, hcase]

theorem map_toLower_capitalizeFirst (h : ∀ c ∈ w, c.toNat < 128) :
    w.capitalizeFirst.map Char.toLower = w.map Char.toLower := by
  cases w with
  | nil => rfl
  | cons c rest =>
    obtain ⟨hupper, -, hcase, -⟩ := ascii_case c.toNat (h c List.mem_cons_self)
    rw [Char.ofNat_toNat] at hupper hcase
    rw [capitalizeFirst, hupper, List.singleton_append, List.map_cons, List.map_cons, hcase]

/-- A word of ASCII characters is a minor word in any case or in none. -/
theorem settled_of_ascii (minor : List Text) (h : ∀ c ∈ w, c.toNat < 128) : Settled minor w :=
  ⟨fun hminor => .inl ((isMinor_congr (map_toLower_lowerChars h)).trans hminor),
    fun hminor => .inl ((isMinor_congr (map_toLower_capitalizeFirst h)).trans hminor)⟩

/-! ## Titles piece by piece -/

/-- The pieces of a text as a title has them, behind `n` words. -/
def titledPieces (minor : List Text) : Nat → List Text → List Text
  | _, [] => []
  | n, piece :: rest =>
    if piece.head?.any isWhitespace then piece :: titledPieces minor n rest
    else titled minor (decide (0 < n)) piece :: titledPieces minor (n + 1) rest

theorem titleChunks_eq_flatten (minor : List Text) (n : Nat) (pieces : List Text) :
    titleChunks minor n pieces = (titledPieces minor n pieces).flatten := by
  induction pieces generalizing n with
  | nil => rfl
  | cons piece rest ih =>
    rw [titleChunks, titledPieces, ih, ih]
    split
    · rfl
    · rw [List.flatten_cons, titled, isMinor]
      split <;> rfl

theorem alternates_titledPieces (minor : List Text) (n : Nat) (h : Alternates isWhitespace q pieces) :
    Alternates isWhitespace q (titledPieces minor n pieces) := by
  induction pieces generalizing q n with
  | nil => trivial
  | cons piece rest ih =>
    obtain ⟨hne, hall, hrest⟩ := h
    rw [titledPieces, any_head?_of_forall hne hall]
    cases q with
    | true => exact ⟨hne, hall, ih n hrest⟩
    | false =>
      obtain ⟨hne', hall'⟩ := titled_word minor (decide (0 < n)) hne hall
      exact ⟨hne', hall', ih (n + 1) hrest⟩

/-- The chunks of a title are those of the text, each as the title has it. -/
theorem chunks_titleCase (minor : List Text) (t : Text) :
    chunks isWhitespace (titleCase minor t) = titledPieces minor 0 (chunks isWhitespace t) := by
  rw [titleCase, titleChunks_eq_flatten]
  exact chunks_flatten (alternates_titledPieces minor 0 (alternates_chunks isWhitespace t))

/-- Twice the same title has the same pieces. -/
theorem titleCase_titleCase_eq_iff (minor : List Text) (t : Text) :
    titleCase minor (titleCase minor t) = titleCase minor t ↔
      titledPieces minor 0 (titledPieces minor 0 (chunks isWhitespace t)) =
        titledPieces minor 0 (chunks isWhitespace t) := by
  rw [← chunks_titleCase, ← chunks_titleCase]
  constructor
  · intro h
    rw [h]
  · intro h
    rw [← flatten_chunks isWhitespace (titleCase minor (titleCase minor t)), h, flatten_chunks]

/-- Among the pieces of a text, the words. -/
def wordsOf (pieces : List Text) : List Text := pieces.filter fun w => !w.head?.any isWhitespace

/-- Behind `n` words, a second title has the same pieces if each word is left as it is. -/
theorem titledPieces_titledPieces_iff (h : Alternates isWhitespace q pieces) :
    titledPieces minor n (titledPieces minor n pieces) = titledPieces minor n pieces ↔
      ∀ w ∈ (wordsOf pieces).drop (1 - n), Settled minor w := by
  induction pieces generalizing q n with
  | nil => simp [titledPieces, wordsOf]
  | cons piece rest ih =>
    obtain ⟨hne, hall, hrest⟩ := h
    have hclass := any_head?_of_forall hne hall
    cases q with
    | true =>
      have hwords : wordsOf (piece :: rest) = wordsOf rest :=
        List.filter_cons_of_neg (by simp [hclass])
      rw [hwords, ← ih (n := n) hrest]
      simp [titledPieces, hclass]
    | false =>
      have hwords : wordsOf (piece :: rest) = piece :: wordsOf rest :=
        List.filter_cons_of_pos (by simp [hclass])
      obtain ⟨hne', hall'⟩ := titled_word minor (decide (0 < n)) hne hall
      have hclass' := any_head?_of_forall hne' hall'
      have hstep : titledPieces minor n (titledPieces minor n (piece :: rest)) =
            titledPieces minor n (piece :: rest) ↔
          titled minor (decide (0 < n)) (titled minor (decide (0 < n)) piece) =
              titled minor (decide (0 < n)) piece ∧
            ∀ w ∈ wordsOf rest, Settled minor w := by
        rw [← List.drop_zero (l := wordsOf rest), ← Nat.sub_eq_zero_of_le (Nat.le_add_left 1 n),
          ← ih (n := n + 1) hrest]
        simp [titledPieces, hclass, hclass']
      rw [hstep, hwords]
      cases n with
      | zero => simp [titled_first]
      | succ n => simp [titled_titled_iff]

/-- The texts that a second title leaves as they are. -/
theorem titleCase_titleCase_iff (minor : List Text) (t : Text) :
    titleCase minor (titleCase minor t) = titleCase minor t ↔
      ∀ w ∈ t.words.tail, Settled minor w := by
  rw [titleCase_titleCase_eq_iff, titledPieces_titledPieces_iff (alternates_chunks isWhitespace t),
    Nat.sub_zero, List.drop_one]
  rfl

end VoiceEdit.Text
