import VoiceEdit.Proofs.Word.Reading

/-!
# The reading that is matched

Where a text can be read as some words in more than one way, one of the readings is preferred. It
has of each word the first spelling that the text can be read on from, and between two words the
longest gap that it can be read on behind. `Preferred` says so by what cannot be read at all, without
any order of trying; and the matcher matches that reading and no other.

Results:

* `stripWords?_cons`: spellings are tried in order.
* `afterGap_eq_some_iff`: gaps are tried from the longest one down.
* `stripWords?_eq_none_iff`: nothing is matched where the text cannot be read.
* `stripWords?_eq_some_iff`: what is matched is the preferred reading.
-/
namespace VoiceEdit.Phrase

open Unicode (fold)

variable {α : Type} {f : List Char → Option α} {spellings next : List Text} {words : List (List Text)}
  {w : Text} {s gap text rest : List Char} {c : Char}

/-! ## One word -/

theorem strip?_eq_some_iff : strip? w text = some rest ↔
    ∃ s, text = s ++ rest ∧ s.map fold = w.map fold := by
  constructor
  · exact eq_append_of_strip?
  · rintro ⟨s, rfl, hs⟩
    exact strip?_append hs rest

theorem stripWords?_singleton : stripWords? [[w]] text = strip? w text := by
  rw [stripWords?, List.findSome?_singleton]

theorem stripWords?_singleton_cons : stripWords? ([w] :: next :: words) text =
    (strip? w text).bind (afterGap (stripWords? (next :: words))) := by
  rw [stripWords?, List.findSome?_singleton]
  intro hnil
  cases hnil

/-- Spellings are tried in order, each as if it were the only one. -/
theorem stripWords?_cons : stripWords? (spellings :: words) text =
    spellings.findSome? fun w => stripWords? ([w] :: words) text := by
  cases words with
  | nil => simp only [stripWords?, List.findSome?_singleton]
  | cons next words => simp only [stripWords?, List.findSome?_singleton]

/-! ## Gaps -/

/-- `gap` can be skipped at the beginning of the text, and then `rest` is left. -/
structure Skips (text gap rest : List Char) : Prop where
  eq : text = gap ++ rest
  isGap : ∀ c ∈ gap, isGap c = true

theorem skips_nil (text : List Char) : Skips text [] text := ⟨rfl, by simp⟩

/-- Either nothing is skipped, or a separator and then as much of what stands behind it. -/
theorem skips_cons_iff : Skips (c :: text) gap rest ↔ gap = [] ∧ rest = c :: text ∨
    isGap c = true ∧ ∃ gap', gap = c :: gap' ∧ Skips text gap' rest := by
  constructor
  · rintro ⟨heq, hgap⟩
    cases gap with
    | nil => exact .inl ⟨rfl, heq.symm⟩
    | cons c' gap =>
      obtain ⟨rfl, hrest⟩ := List.cons_eq_cons.1 heq
      obtain ⟨hc, hgap⟩ := List.forall_mem_cons.1 hgap
      exact .inr ⟨hc, gap, rfl, hrest, hgap⟩
  · rintro (⟨rfl, rfl⟩ | ⟨hc, gap, rfl, rfl, hgap⟩)
    · exact skips_nil _
    · exact ⟨rfl, List.forall_mem_cons.2 ⟨hc, hgap⟩⟩

theorem afterGap_eq_none_iff : afterGap f text = none ↔ ∀ gap rest, Skips text gap rest → f rest = none := by
  constructor
  · rintro h gap rest ⟨rfl, hgap⟩
    refine Option.not_isSome_iff_eq_none.1 fun hsome => ?_
    have hmatch := isSome_afterGap hgap hsome
    rw [h] at hmatch
    cases hmatch
  · intro h
    cases hmatch : afterGap f text with
    | none => rfl
    | some a =>
      obtain ⟨gap, rest, heq, hgap, hf⟩ := afterGap_eq_some hmatch
      rw [h gap rest ⟨heq, hgap⟩] at hf
      cases hf

/-- Gaps are tried from the longest one down. -/
theorem afterGap_eq_some_iff {a : α} : afterGap f text = some a ↔ ∃ gap rest, Skips text gap rest ∧
    f rest = some a ∧ ∀ gap' rest', Skips text gap' rest' → gap.length < gap'.length → f rest' = none := by
  induction text with
  | nil =>
    have hnil {gap rest : List Char} (h : Skips [] gap rest) : gap = [] ∧ rest = [] :=
      List.append_eq_nil_iff.1 h.eq.symm
    rw [afterGap]
    constructor
    · intro h
      refine ⟨[], [], skips_nil [], h, fun gap' rest' hskips hlt => ?_⟩
      rw [(hnil hskips).1] at hlt
      cases hlt
    · rintro ⟨gap, rest, hskips, h, -⟩
      rwa [(hnil hskips).2] at h
  | cons c text ih =>
    rw [afterGap]
    simp only [skips_cons_iff]
    by_cases hc : isGap c = true
    · rw [if_pos hc, Option.or_eq_some_iff, ih, afterGap_eq_none_iff]
      constructor
      · rintro (⟨gap, rest, hskips, h, hlongest⟩ | ⟨hnone, h⟩)
        · refine ⟨c :: gap, rest, .inr ⟨hc, gap, rfl, hskips⟩, h, ?_⟩
          rintro _ rest' (⟨rfl, -⟩ | ⟨-, gap', rfl, hskips'⟩) hlt
          · cases hlt
          · exact hlongest gap' rest' hskips' (Nat.lt_of_succ_lt_succ hlt)
        · refine ⟨[], c :: text, .inl ⟨rfl, rfl⟩, h, ?_⟩
          rintro _ rest' (⟨rfl, -⟩ | ⟨-, gap', rfl, hskips'⟩) hlt
          · cases hlt
          · exact hnone gap' rest' hskips'
      · rintro ⟨_, rest, ⟨rfl, rfl⟩ | ⟨-, gap, rfl, hskips⟩, h, hlongest⟩
        · exact .inr ⟨fun gap' rest' hskips' =>
            hlongest (c :: gap') rest' (.inr ⟨hc, gap', rfl, hskips'⟩) (Nat.succ_pos _), h⟩
        · exact .inl ⟨gap, rest, hskips, h, fun gap' rest' hskips' hlt =>
            hlongest (c :: gap') rest' (.inr ⟨hc, gap', rfl, hskips'⟩) (Nat.succ_lt_succ hlt)⟩
    · rw [if_neg hc]
      constructor
      · intro h
        refine ⟨[], c :: text, .inl ⟨rfl, rfl⟩, h, ?_⟩
        rintro _ rest' (⟨rfl, -⟩ | ⟨hc', -⟩) hlt
        · cases hlt
        · exact absurd hc' hc
      · rintro ⟨_, rest, ⟨rfl, rfl⟩ | ⟨hc', -⟩, h, -⟩
        · exact h
        · exact absurd hc' hc

/-! ## Readings -/

/-- `s` is the preferred reading of the beginning of the text: of each word the first spelling, and
then the longest gap, from which the text can be read on. -/
inductive Preferred : List (List Text) → List Char → List Char → Prop
  | last {w s rest : List Char} (h : s.map fold = w.map fold) : Preferred [[w]] (s ++ rest) s
  | gap {w s gap text rest r : List Char} {next : List Text} {words : List (List Text)}
    (h : s.map fold = w.map fold) (hgap : Skips text gap rest)
    (hlongest : ∀ gap' rest', Skips text gap' rest' → gap.length < gap'.length →
      ∀ r', r' <+: rest' → ¬Reads (next :: words) r')
    (hrest : Preferred (next :: words) rest r) :
    Preferred ([w] :: next :: words) (s ++ text) (s ++ gap ++ r)
  | choice {before after : List Text} {w : Text} {words : List (List Text)} {text s : List Char}
    (hfirst : ∀ w' ∈ before, ∀ r, r <+: text → ¬Reads ([w'] :: words) r)
    (h : Preferred ([w] :: words) text s) : Preferred ((before ++ w :: after) :: words) text s

/-- Nothing is matched where the text cannot be read. -/
theorem stripWords?_eq_none_iff (hne : words ≠ []) :
    stripWords? words text = none ↔ ∀ r, r <+: text → ¬Reads words r := by
  constructor
  · rintro h r ⟨rest, rfl⟩ hr
    have hsome := isSome_stripWords?_of_reads hr rest
    rw [h] at hsome
    cases hsome
  · intro h
    cases hmatch : stripWords? words text with
    | none => rfl
    | some rest =>
      obtain ⟨r, rfl, hr⟩ := reads_of_stripWords? hne hmatch
      exact absurd hr (h r (List.prefix_append r rest))

/-- What is matched is a preferred reading. -/
theorem preferred_of_stripWords? (hne : words ≠ []) (h : stripWords? words text = some rest) :
    ∃ s, text = s ++ rest ∧ Preferred words text s := by
  induction words generalizing text with
  | nil => exact absurd rfl hne
  | cons spellings words ih =>
    rw [stripWords?_cons] at h
    obtain ⟨before, w, after, rfl, hw, hfirst⟩ := List.findSome?_eq_some_iff.1 h
    have hread : ∀ w' ∈ before, ∀ r, r <+: text → ¬Reads ([w'] :: words) r := fun w' hw' =>
      (stripWords?_eq_none_iff (List.cons_ne_nil _ _)).1 (hfirst w' hw')
    cases words with
    | nil =>
      rw [stripWords?_singleton] at hw
      obtain ⟨s, rfl, hs⟩ := strip?_eq_some_iff.1 hw
      exact ⟨s, rfl, .choice hread (.last hs)⟩
    | cons next words =>
      rw [stripWords?_singleton_cons] at hw
      obtain ⟨behind, hstrip, hafter⟩ := Option.bind_eq_some_iff.1 hw
      obtain ⟨s, rfl, hs⟩ := strip?_eq_some_iff.1 hstrip
      obtain ⟨gap, left, hgap, hnext, hlongest⟩ := afterGap_eq_some_iff.1 hafter
      obtain ⟨r, rfl, hr⟩ := ih (List.cons_ne_nil _ _) hnext
      refine ⟨s ++ gap ++ r, ?_, .choice hread (.gap hs hgap (fun gap' rest' hgap' hlt => ?_) hr)⟩
      · rw [hgap.eq, List.append_assoc, List.append_assoc]
      · exact (stripWords?_eq_none_iff (List.cons_ne_nil _ _)).1 (hlongest gap' rest' hgap' hlt)

/-- A preferred reading is matched. -/
theorem Preferred.stripWords?_eq (h : Preferred words text s) :
    ∃ rest, text = s ++ rest ∧ stripWords? words text = some rest := by
  induction h with
  | @last w s rest h =>
    refine ⟨rest, rfl, ?_⟩
    rw [stripWords?_singleton]
    exact strip?_append h rest
  | @gap w s gap text left r next words h hgap hlongest hrest ih =>
    obtain ⟨rest, rfl, hmatch⟩ := ih
    refine ⟨rest, by rw [hgap.eq, List.append_assoc, List.append_assoc], ?_⟩
    rw [stripWords?_singleton_cons, strip?_append h, Option.bind_some]
    refine afterGap_eq_some_iff.2 ⟨gap, r ++ rest, hgap, hmatch, fun gap' rest' hgap' hlt => ?_⟩
    exact (stripWords?_eq_none_iff (List.cons_ne_nil _ _)).2 (hlongest gap' rest' hgap' hlt)
  | @choice before after w words text s hfirst h ih =>
    obtain ⟨rest, rfl, hmatch⟩ := ih
    refine ⟨rest, rfl, ?_⟩
    rw [stripWords?_cons, List.findSome?_eq_some_iff]
    refine ⟨before, w, after, rfl, hmatch, fun w' hw' => ?_⟩
    exact (stripWords?_eq_none_iff (List.cons_ne_nil _ _)).2 (hfirst w' hw')

/-- **What is matched is the preferred reading.** -/
theorem stripWords?_eq_some_iff (hne : words ≠ []) : stripWords? words text = some rest ↔
    ∃ s, text = s ++ rest ∧ Preferred words text s := by
  refine ⟨preferred_of_stripWords? hne, ?_⟩
  rintro ⟨s, heq, hs⟩
  obtain ⟨rest', heq', hmatch⟩ := hs.stripWords?_eq
  rw [hmatch, List.append_cancel_left (heq'.symm.trans heq)]

end VoiceEdit.Phrase
