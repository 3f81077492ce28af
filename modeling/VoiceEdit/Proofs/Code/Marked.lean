import VoiceEdit.Proofs.Code.Quoted
import VoiceEdit.Proofs.Text.Rows

/-!
# Comments and their markers

Where comments begin is said by their markers: of the markers on a line, outside of double quotes,
the first may begin a line comment, unless it lies in a block comment. The comments of a text are the
block comments and these line comments, in the order of their spans, so the comment found around a
place is the first of them that touches it.

Results:

* `markerAt?_eq_some_iff`, `lineMarkerFrom?_eq_some_iff`: the marker that is taken at a place, and the
  place that is taken on a line.
* `lineMarkerFrom?_iff_leads`, `lineComment?_of_leads`: the marker of a line and its comment.
* `exists_of_mem_blocks`, `exists_mem_blocks`, `any_spans_iff`, `any_blocks_iff`: the block comments.
* `exists_all`: all comments, and their order.
* `around?_of_first`, `not_mem_all_of_hidden`: the comment of a line.
-/
namespace VoiceEdit.Comment

variable {settings : Settings} {t marker : Text} {markers : List Text} {c : Comment}
  {blocks cs : List Comment} {s : Span} {r : Option Comment} {pos count n k w start stop : Nat}

/-! ## Markers -/

/-- A line comment may begin at `k`: a marker stands there that is not, behind a colon, the two
slashes of a URL. -/
structure Begins (settings : Settings) (t : Text) (k : Nat) (marker : Text) : Prop where
  mem : marker ∈ settings.lineMarkers
  ne_nil : marker ≠ []
  stands : marker <+: t.after k
  not_url : ¬(['/', '/'] <+: marker ∧ t.prev? k = some ':')

instance (settings : Settings) (t : Text) (k : Nat) (marker : Text) :
    Decidable (Begins settings t k marker) :=
  decidable_of_iff (marker ∈ settings.lineMarkers ∧ marker ≠ [] ∧ marker <+: t.after k ∧
      ¬(['/', '/'] <+: marker ∧ t.prev? k = some ':'))
    ⟨fun ⟨h₁, h₂, h₃, h₄⟩ => ⟨h₁, h₂, h₃, h₄⟩, fun ⟨h₁, h₂, h₃, h₄⟩ => ⟨h₁, h₂, h₃, h₄⟩⟩

/-- `k` lies in a block comment, from its opening marker to the end of its closing marker. -/
def InBlock (settings : Settings) (t : Text) (k : Nat) : Prop :=
  ∃ m ∈ settings.blockMarkers, (m.start ≠ [] ∧ m.stop ≠ []) ∧
    ∃ o ∈ blocksFrom m 0 0 t, o.1 ≤ k ∧ k < o.2 + m.stop.length

instance (settings : Settings) (t : Text) (k : Nat) : Decidable (InBlock settings t k) :=
  inferInstanceAs (Decidable (∃ m ∈ settings.blockMarkers, (m.start ≠ [] ∧ m.stop ≠ []) ∧
    ∃ o ∈ blocksFrom m 0 0 t, o.1 ≤ k ∧ k < o.2 + m.stop.length))

/-- `k` lies in a block comment or in the blanks before it. -/
def InSpan (settings : Settings) (t : Text) (k : Nat) : Prop :=
  ∃ m ∈ settings.blockMarkers, (m.start ≠ [] ∧ m.stop ≠ []) ∧
    ∃ o ∈ blocksFrom m 0 0 t, o.1 - t.runBefore isBlank o.1 ≤ k ∧ k < o.2 + m.stop.length

instance (settings : Settings) (t : Text) (k : Nat) : Decidable (InSpan settings t k) :=
  inferInstanceAs (Decidable (∃ m ∈ settings.blockMarkers, (m.start ≠ [] ∧ m.stop ≠ []) ∧
    ∃ o ∈ blocksFrom m 0 0 t, o.1 - t.runBefore isBlank o.1 ≤ k ∧ k < o.2 + m.stop.length))

/-- What a marker has to do to be taken where it is looked for. -/
theorem fits_iff : (marker.isPrefixOf (t.after k) &&
      !(['/', '/'].isPrefixOf marker && t.prev? k == some ':')) = true ↔
    marker <+: t.after k ∧ ¬(['/', '/'] <+: marker ∧ t.prev? k = some ':') := by
  rw [Bool.and_eq_true, Bool.not_eq_true', ← Bool.not_eq_true, Bool.and_eq_true, beq_iff_eq,
    List.isPrefixOf_iff_prefix, List.isPrefixOf_iff_prefix]

theorem begins_of_markerAt?
    (h : markerAt? settings.markersByLength (t.prev? k) (t.after k) = some marker) :
    Begins settings t k marker := by
  obtain ⟨hmem, hne⟩ := Settings.mem_markersByLength.1 (List.mem_of_find?_eq_some h)
  have hfits := List.find?_some h
  obtain ⟨hstands, hurl⟩ := fits_iff.1 hfits
  exact ⟨hmem, hne, hstands, hurl⟩

theorem markerAt?_eq_none_iff :
    markerAt? settings.markersByLength (t.prev? k) (t.after k) = none ↔
      ∀ marker, ¬Begins settings t k marker := by
  rw [markerAt?, List.find?_eq_none]
  constructor
  · intro h marker hbegins
    exact h marker (Settings.mem_markersByLength.2 ⟨hbegins.mem, hbegins.ne_nil⟩)
      (fits_iff.2 ⟨hbegins.stands, hbegins.not_url⟩)
  · intro h marker hmem hfits
    obtain ⟨hmem, hne⟩ := Settings.mem_markersByLength.1 hmem
    obtain ⟨hstands, hurl⟩ := fits_iff.1 hfits
    exact h marker ⟨hmem, hne, hstands, hurl⟩

/-- The marker that is taken is the longest of those that may begin a comment. -/
theorem markerAt?_eq_some_iff :
    markerAt? settings.markersByLength (t.prev? k) (t.after k) = some marker ↔
      Begins settings t k marker ∧
        ∀ m ∈ settings.lineMarkers, Begins settings t k m → m.length ≤ marker.length := by
  have hsorted : settings.markersByLength.Pairwise fun a b => b.length ≤ a.length := by
    refine (List.pairwise_mergeSort (fun a b c hab hbc => ?_) (fun a b => ?_) _).imp of_decide_eq_true
    · exact decide_eq_true (Nat.le_trans (of_decide_eq_true hbc) (of_decide_eq_true hab))
    · simpa using Nat.le_total b.length a.length
  have longest {m m' : Text} (h : markerAt? settings.markersByLength (t.prev? k) (t.after k) = some m)
      (h' : Begins settings t k m') : m'.length ≤ m.length := by
    rcases eq_or_of_find? hsorted h (Settings.mem_markersByLength.2 ⟨h'.mem, h'.ne_nil⟩)
      (fits_iff.2 ⟨h'.stands, h'.not_url⟩) with rfl | hle
    · exact Nat.le_refl _
    · exact hle
  constructor
  · intro h
    exact ⟨begins_of_markerAt? h, fun m _ hm => longest h hm⟩
  · rintro ⟨hbegins, hlongest⟩
    cases h : markerAt? settings.markersByLength (t.prev? k) (t.after k) with
    | none => exact absurd hbegins (markerAt?_eq_none_iff.1 h marker)
    | some m =>
      have hm := begins_of_markerAt? h
      have hlen : m.length = marker.length := Nat.le_antisymm (hlongest m hm.mem hm) (longest h hbegins)
      have hsame := List.prefix_of_prefix_length_le hm.stands hbegins.stands (Nat.le_of_eq hlen)
      rw [hsame.eq_of_length hlen]

/-! ## Quotes -/

/-- A double quote stands at `i`, without a backslash before it. -/
def Quotes (t : Text) (i : Nat) : Prop := t[i]? = some '"' ∧ t.prev? i ≠ some '\\'

instance (t : Text) (i : Nat) : Decidable (Quotes t i) := inferInstanceAs (Decidable (_ ∧ _))

/-- How many double quotes stand from `pos` on and before `k`. -/
def quotesBetween (t : Text) (pos k : Nat) : Nat :=
  (List.range' pos (k - pos)).countP fun i => decide (Quotes t i)

/-- Where a line is read from `pos` on, inside of a string if `quoted`, a marker at `k` is seen:
every string before it is closed, and none opens there. -/
structure Unquoted (t : Text) (quoted : Bool) (pos k : Nat) : Prop where
  not_quotes : ¬Quotes t k
  even : (quoted.toNat + quotesBetween t pos k) % 2 = 0

instance (t : Text) (quoted : Bool) (pos k : Nat) : Decidable (Unquoted t quoted pos k) :=
  decidable_of_iff (¬Quotes t k ∧ (quoted.toNat + quotesBetween t pos k) % 2 = 0)
    ⟨fun ⟨h₁, h₂⟩ => ⟨h₁, h₂⟩, fun ⟨h₁, h₂⟩ => ⟨h₁, h₂⟩⟩

theorem unquoted_self {quoted : Bool} :
    Unquoted t quoted pos pos ↔ ¬Quotes t pos ∧ quoted = false := by
  have hnone : quotesBetween t pos pos = 0 := by simp [quotesBetween]
  constructor
  · intro h
    have heven := h.even
    rw [hnone] at heven
    cases quoted with
    | false => exact ⟨h.not_quotes, rfl⟩
    | true => simp at heven
  · rintro ⟨hquote, rfl⟩
    exact ⟨hquote, by rw [hnone]; rfl⟩

/-- A quote opens a string or closes one. -/
theorem unquoted_succ {quoted : Bool} (h : pos < k) :
    Unquoted t quoted pos k ↔ Unquoted t (quoted ^^ decide (Quotes t pos)) (pos + 1) k := by
  have hcount : quotesBetween t pos k =
      quotesBetween t (pos + 1) k + (decide (Quotes t pos)).toNat := by
    unfold quotesBetween
    rw [show k - pos = (k - (pos + 1)) + 1 by omega, List.range'_succ, List.countP_cons]
    by_cases hq : Quotes t pos <;> simp [hq]
  have heven : (quoted.toNat + quotesBetween t pos k) % 2 = 0 ↔
      ((quoted ^^ decide (Quotes t pos)).toNat + quotesBetween t (pos + 1) k) % 2 = 0 := by
    rw [hcount]
    by_cases hq : Quotes t pos <;> cases quoted <;> simp [hq] <;> omega
  exact ⟨fun h => ⟨h.not_quotes, heven.1 h.even⟩, fun h => ⟨h.not_quotes, heven.2 h.even⟩⟩

/-- No place is quoted where there are no quotes. -/
theorem unquoted_of_forall (h : ∀ i ≤ k, pos ≤ i → t[i]? ≠ some '"') (hle : pos ≤ k) :
    Unquoted t false pos k := by
  have hnone : quotesBetween t pos k = 0 := by
    refine List.countP_eq_zero.2 fun i hi => ?_
    rw [List.mem_range'_1] at hi
    rw [decide_eq_true_eq]
    exact fun hq => h i (by omega) hi.1 hq.1
  exact ⟨fun hq => h k (Nat.le_refl k) hle hq.1, by rw [hnone]; rfl⟩

/-- Of the `count` places from `pos` on, `k` is the first where a marker is seen. -/
structure FirstMarker (markers : List Text) (t : Text) (count : Nat) (quoted : Bool) (pos k : Nat)
    (marker : Text) : Prop where
  le : pos ≤ k
  lt : k < pos + count
  unquoted : Unquoted t quoted pos k
  marker : markerAt? markers (t.prev? k) (t.after k) = some marker
  first : ∀ i < k, pos ≤ i → Unquoted t quoted pos i →
    markerAt? markers (t.prev? i) (t.after i) = none

/-- Where no marker is seen, the reading goes on. -/
theorem firstMarker_succ {quoted : Bool}
    (h : Unquoted t quoted pos pos → markerAt? markers (t.prev? pos) (t.after pos) = none) :
    FirstMarker markers t (count + 1) quoted pos k marker ↔
      FirstMarker markers t count (quoted ^^ decide (Quotes t pos)) (pos + 1) k marker := by
  constructor
  · intro hk
    have hle := hk.le
    have hlt := hk.lt
    have hne : k ≠ pos := by
      rintro rfl
      have hmarker := hk.marker
      rw [h hk.unquoted] at hmarker
      cases hmarker
    refine ⟨by omega, by omega, (unquoted_succ (by omega)).1 hk.unquoted, hk.marker, ?_⟩
    exact fun i hi hpi hu => hk.first i hi (by omega) ((unquoted_succ (by omega)).2 hu)
  · intro hk
    have hle := hk.le
    have hlt := hk.lt
    refine ⟨by omega, by omega, (unquoted_succ (by omega)).2 hk.unquoted, hk.marker, ?_⟩
    intro i hi hpi hu
    by_cases heq : i = pos
    · rw [heq] at hu ⊢
      exact h hu
    · exact hk.first i hi (by omega) ((unquoted_succ (by omega)).1 hu)

/-- Where a marker is seen, the reading ends. -/
theorem firstMarker_self {quoted : Bool} {m : Text} (hu : Unquoted t quoted pos pos)
    (h : markerAt? markers (t.prev? pos) (t.after pos) = some marker) :
    FirstMarker markers t (count + 1) quoted pos k m ↔ k = pos ∧ m = marker := by
  constructor
  · intro hk
    have heq : k = pos := by
      refine Nat.le_antisymm (Nat.le_of_not_lt fun hlt => ?_) hk.le
      have hnone := hk.first pos hlt (Nat.le_refl _) hu
      rw [h] at hnone
      cases hnone
    subst heq
    exact ⟨rfl, Option.some.inj (hk.marker.symm.trans h)⟩
  · rintro ⟨rfl, rfl⟩
    exact ⟨Nat.le_refl _, by omega, hu, h, fun i hi hle => by omega⟩

/-- The first place is taken where a marker is seen. -/
theorem lineMarkerFrom?_eq_some_iff {quoted : Bool} (hlen : pos + count ≤ t.length) :
    lineMarkerFrom? markers count quoted pos (t.prev? pos) (t.after pos) = some (k, w) ↔
      ∃ marker, FirstMarker markers t count quoted pos k marker ∧ marker.length = w := by
  induction count generalizing quoted pos with
  | zero =>
    refine iff_of_false (fun h => by cases h) ?_
    rintro ⟨marker, hk, -⟩
    have hle := hk.le
    have hlt := hk.lt
    omega
  | succ count ih =>
    have hpos : t[pos]? = some t[pos] := List.getElem?_eq_getElem (by omega)
    have hprev : t.prev? (pos + 1) = some t[pos] := Text.prev?_succ hpos
    have hquotes : t[pos] = '"' ∧ t.prev? pos ≠ some '\\' ↔ Quotes t pos := by
      rw [Quotes, hpos, Option.some.injEq]
    rw [Text.after_eq_cons hpos, lineMarkerFrom?, ← Text.after_eq_cons hpos, ← hprev]
    by_cases hq : Quotes t pos
    · -- A quote is passed over.
      rw [if_pos (hquotes.2 hq), ih (by omega)]
      simp only [firstMarker_succ fun hu => absurd hq hu.not_quotes, decide_eq_true hq, Bool.xor_true]
    · rw [if_neg (mt hquotes.1 hq)]
      have hsame : (quoted ^^ decide (Quotes t pos)) = quoted := by simp [hq]
      cases quoted with
      | true =>
        have hinside : ¬Unquoted t true pos pos := fun hu =>
          Bool.false_ne_true (unquoted_self.1 hu).2.symm
        rw [if_pos rfl, ih (by omega)]
        simp only [firstMarker_succ fun hu => absurd hu hinside, hsame]
      | false =>
        rw [if_neg Bool.false_ne_true]
        cases hmarker : markerAt? markers (t.prev? pos) (t.after pos) with
        | none =>
          simp only [firstMarker_succ fun _ => hmarker, hsame]
          exact ih (by omega)
        | some marker =>
          simp only [firstMarker_self (unquoted_self.2 ⟨hq, rfl⟩) hmarker]
          constructor
          · rintro ⟨rfl, rfl⟩
            exact ⟨marker, ⟨rfl, rfl⟩, rfl⟩
          · rintro ⟨m, ⟨rfl, rfl⟩, rfl⟩
            rfl

/-- Line `n` has its marker at `k`: the longest that may begin a comment there, where none is seen
before it on the line. -/
structure Leads (settings : Settings) (t : Text) (n k : Nat) (marker : Text) : Prop where
  start_le : t.startOfLine n ≤ k
  lt_stop : k < t.lineEnd (t.startOfLine n)
  unquoted : Unquoted t false (t.startOfLine n) k
  begins : Begins settings t k marker
  longest : ∀ m ∈ settings.lineMarkers, Begins settings t k m → m.length ≤ marker.length
  first : ∀ i < k, t.startOfLine n ≤ i → Unquoted t false (t.startOfLine n) i →
    ∀ m ∈ settings.lineMarkers, ¬Begins settings t i m

instance (settings : Settings) (t : Text) (n k : Nat) (marker : Text) :
    Decidable (Leads settings t n k marker) :=
  decidable_of_iff (t.startOfLine n ≤ k ∧ k < t.lineEnd (t.startOfLine n) ∧
      Unquoted t false (t.startOfLine n) k ∧ Begins settings t k marker ∧
      (∀ m ∈ settings.lineMarkers, Begins settings t k m → m.length ≤ marker.length) ∧
      ∀ i < k, t.startOfLine n ≤ i → Unquoted t false (t.startOfLine n) i →
        ∀ m ∈ settings.lineMarkers, ¬Begins settings t i m)
    ⟨fun ⟨h₁, h₂, h₃, h₄, h₅, h₆⟩ => ⟨h₁, h₂, h₃, h₄, h₅, h₆⟩,
      fun ⟨h₁, h₂, h₃, h₄, h₅, h₆⟩ => ⟨h₁, h₂, h₃, h₄, h₅, h₆⟩⟩

theorem add_line_length (t : Text) (n : Nat) :
    t.startOfLine n + (t.lineEnd (t.startOfLine n) - t.startOfLine n) = t.lineEnd (t.startOfLine n) :=
  Nat.add_sub_cancel' (t.le_lineEnd (Text.startOfLine_le n))

theorem Leads.lineEnd_eq (h : Leads settings t n k marker) :
    t.lineEnd k = t.lineEnd (t.startOfLine n) := by
  have hstart := t.lineStart_le (t.startOfLine n)
  have hle := h.start_le
  exact Text.lineEnd_of_mem (Text.startOfLine_le n) (by omega) (Nat.le_of_lt h.lt_stop)

theorem Leads.lt_length (h : Leads settings t n k marker) : k < t.length :=
  Nat.lt_of_lt_of_le h.lt_stop (t.lineEnd_le_length _)

theorem leads_iff : Leads settings t n k marker ↔ FirstMarker settings.markersByLength t
    (t.lineEnd (t.startOfLine n) - t.startOfLine n) false (t.startOfLine n) k marker := by
  constructor
  · intro h
    refine ⟨h.start_le, by rw [add_line_length]; exact h.lt_stop, h.unquoted,
      markerAt?_eq_some_iff.2 ⟨h.begins, h.longest⟩, fun i hi hle hu => ?_⟩
    exact markerAt?_eq_none_iff.2 fun m hm => h.first i hi hle hu m hm.mem hm
  · intro h
    have hlt := h.lt
    rw [add_line_length] at hlt
    obtain ⟨hbegins, hlongest⟩ := markerAt?_eq_some_iff.1 h.marker
    refine ⟨h.le, hlt, h.unquoted, hbegins, hlongest, fun i hi hle hu m _ => ?_⟩
    exact markerAt?_eq_none_iff.1 (h.first i hi hle hu) m

/-- What is looked for on a line is its marker. -/
theorem lineMarkerFrom?_iff_leads :
    lineMarkerFrom? settings.markersByLength (t.lineEnd (t.startOfLine n) - t.startOfLine n) false
        (t.startOfLine n) (t.prev? (t.startOfLine n)) (t.after (t.startOfLine n)) = some (k, w) ↔
      ∃ marker, Leads settings t n k marker ∧ marker.length = w := by
  rw [lineMarkerFrom?_eq_some_iff (by rw [add_line_length]; exact t.lineEnd_le_length _)]
  simp only [leads_iff]

/-! ## Block comments -/

/-- What lies between the marker and the end of a comment is in order, so its body is that, trimmed. -/
theorem trims_of_ofParts {marker last : Nat} (h : ofParts t marker start stop last = .ok c)
    (hstop : stop ≤ t.length) : Text.Trims t start stop c.body.start c.body.stop := by
  obtain ⟨hbody, -, -⟩ := of_ofParts h
  have hle := c.body.start_le_stop
  have h₁ := t.le_trimmedBounds start stop
  have h₂ : (t.trimmedBounds start stop).2 ≤ stop := Nat.sub_le _ _
  rw [← hbody] at h₁ h₂
  have htrims : Text.Trims t start stop (t.trimmedBounds start stop).1 (t.trimmedBounds start stop).2 :=
    Text.trims_trimmedBounds (by omega) hstop
  rwa [← hbody] at htrims

theorem isEmpty_or_eq_false_iff {m : BlockMarker} :
    (m.start.isEmpty || m.stop.isEmpty) = false ↔ m.start ≠ [] ∧ m.stop ≠ [] := by
  rw [Bool.or_eq_false_iff, List.isEmpty_eq_false_iff, List.isEmpty_eq_false_iff]

theorem exists_of_mem_blocks (h : Comment.blocks t settings = .ok blocks) (hc : c ∈ blocks) :
    ∃ m ∈ settings.blockMarkers, (m.start ≠ [] ∧ m.stop ≠ []) ∧ ∃ o ∈ blocksFrom m 0 0 t,
      ofParts t o.1 (o.1 + m.start.length) o.2 (o.2 + m.stop.length) = .ok c := by
  obtain ⟨found, hfound, h⟩ := bind_eq_ok.1 h
  cases h
  obtain ⟨cs, hcs, hc⟩ := List.mem_flatten.1 hc
  obtain ⟨m, hm, hblocks⟩ := exists_of_mapM hfound hcs
  unfold blocksOf at hblocks
  by_cases hempty : (m.start.isEmpty || m.stop.isEmpty) = true
  · rw [if_pos hempty] at hblocks
    cases hblocks
    cases hc
  · rw [if_neg hempty] at hblocks
    obtain ⟨o, ho, hparts⟩ := exists_of_mapM hblocks hc
    exact ⟨m, hm, isEmpty_or_eq_false_iff.1 (eq_false_of_ne_true hempty), o, ho, hparts⟩

theorem exists_mem_blocks (h : Comment.blocks t settings = .ok blocks) {m : BlockMarker}
    (hm : m ∈ settings.blockMarkers) (hne : m.start ≠ [] ∧ m.stop ≠ []) {o : Nat × Nat}
    (ho : o ∈ blocksFrom m 0 0 t) :
    ∃ c ∈ blocks, ofParts t o.1 (o.1 + m.start.length) o.2 (o.2 + m.stop.length) = .ok c := by
  obtain ⟨found, hfound, h⟩ := bind_eq_ok.1 h
  cases h
  obtain ⟨cs, hcs, hblocks⟩ := mem_of_mapM hfound hm
  unfold blocksOf at hblocks
  rw [if_neg (ne_true_of_eq_false (isEmpty_or_eq_false_iff.2 hne))] at hblocks
  obtain ⟨c, hc, hparts⟩ := mem_of_mapM hblocks ho
  exact ⟨c, List.mem_flatten.2 ⟨cs, hcs, hc⟩, hparts⟩

/-- Where a block comment goes from and to, with the blanks before its marker. -/
theorem span_of_block {m : BlockMarker} {o : Nat × Nat} (ho : o ∈ blocksFrom m 0 0 t)
    (h : ofParts t o.1 (o.1 + m.start.length) o.2 (o.2 + m.stop.length) = .ok c) :
    c.span.start = o.1 - t.runBefore isBlank o.1 ∧ c.span.stop = o.2 + m.stop.length ∧
      o.1 ≤ t.length := by
  obtain ⟨-, hbody, hlen⟩ := mem_blocksFrom_bounds ho
  rw [Nat.zero_add] at hlen
  obtain ⟨-, hstart, hstop⟩ := of_ofParts h
  exact ⟨hstart, hstop, by omega⟩

/-- A place that is not blank and not before the blanks is not before the marker either. -/
theorem le_of_sub_runBefore_le {i : Nat} (hi : i ≤ t.length) (hk : t.nextIs isBlank k = false)
    (h : i - t.runBefore isBlank i ≤ k) : i ≤ k := by
  refine Nat.le_of_not_lt fun hlt => ?_
  rw [Text.nextIs_of_sub_runBefore_le hi h hlt] at hk
  cases hk

/-- The spans of the block comments are what they take with the blanks before them. -/
theorem any_spans_iff (h : Comment.blocks t settings = .ok blocks) :
    (blocks.any fun b => decide (b.span.start ≤ k) && decide (k < b.span.stop)) = true ↔
      InSpan settings t k := by
  simp only [List.any_eq_true, Bool.and_eq_true, decide_eq_true_eq]
  constructor
  · rintro ⟨b, hb, hle, hlt⟩
    obtain ⟨m, hm, hne, o, ho, hparts⟩ := exists_of_mem_blocks h hb
    obtain ⟨hstart, hstop, -⟩ := span_of_block ho hparts
    exact ⟨m, hm, hne, o, ho, by rwa [← hstart], by rwa [← hstop]⟩
  · rintro ⟨m, hm, hne, o, ho, hle, hlt⟩
    obtain ⟨b, hb, hparts⟩ := exists_mem_blocks h hm hne ho
    obtain ⟨hstart, hstop, -⟩ := span_of_block ho hparts
    exact ⟨b, hb, by rwa [hstart], by rwa [hstop]⟩

/-- What is not blank lies in the span of a block comment if it lies in the comment. -/
theorem inSpan_iff (hk : t.nextIs isBlank k = false) : InSpan settings t k ↔ InBlock settings t k := by
  constructor
  · rintro ⟨m, hm, hne, o, ho, hle, hlt⟩
    obtain ⟨-, hbody, hlen⟩ := mem_blocksFrom_bounds ho
    rw [Nat.zero_add] at hlen
    exact ⟨m, hm, hne, o, ho, le_of_sub_runBefore_le (by omega) hk hle, hlt⟩
  · rintro ⟨m, hm, hne, o, ho, hle, hlt⟩
    exact ⟨m, hm, hne, o, ho, by omega, hlt⟩

theorem any_blocks_iff (h : Comment.blocks t settings = .ok blocks)
    (hk : t.nextIs isBlank k = false) :
    (blocks.any fun b => decide (b.span.start ≤ k) && decide (k < b.span.stop)) = true ↔
      InBlock settings t k :=
  (any_spans_iff h).trans (inSpan_iff hk)

/-! ## Line comments -/

/-- On a line without a marker there is no line comment. -/
theorem lineComment?_of_forall (h : ∀ k marker, ¬Leads settings t n k marker) :
    lineComment? t settings.markersByLength blocks n = .ok none := by
  simp only [lineComment?, Text.contentBounds]
  cases hmarker : lineMarkerFrom? settings.markersByLength (t.lineEnd (t.startOfLine n) - t.startOfLine n)
      false (t.startOfLine n) (t.prev? (t.startOfLine n)) (t.after (t.startOfLine n)) with
  | none => rfl
  | some o =>
    obtain ⟨marker, hleads, -⟩ := lineMarkerFrom?_iff_leads.1 hmarker
    exact absurd hleads (h o.1 marker)

/-- The line comment of a line begins at its marker, unless that lies in a block comment. -/
theorem lineComment?_of_leads (h : Leads settings t n k marker) :
    lineComment? t settings.markersByLength blocks n =
      if blocks.any fun b => decide (b.span.start ≤ k) && decide (k < b.span.stop) then .ok none
      else some <$> ofParts t k (k + marker.length) (t.lineEnd (t.startOfLine n))
        (t.lineEnd (t.startOfLine n)) := by
  simp only [lineComment?, Text.contentBounds, lineMarkerFrom?_iff_leads.2 ⟨marker, h, rfl⟩]
  rfl

theorem exists_of_lineComment? (h : lineComment? t settings.markersByLength blocks n = .ok (some c)) :
    ∃ k marker, Leads settings t n k marker ∧
      (blocks.any fun b => decide (b.span.start ≤ k) && decide (k < b.span.stop)) = false ∧
      ofParts t k (k + marker.length) (t.lineEnd (t.startOfLine n)) (t.lineEnd (t.startOfLine n)) =
        .ok c := by
  by_cases hleads : ∃ k marker, Leads settings t n k marker
  · obtain ⟨k, marker, hleads⟩ := hleads
    rw [lineComment?_of_leads hleads] at h
    split at h
    · cases h
    · rename_i hany
      obtain ⟨c', hparts, heq⟩ := map_eq_ok.1 h
      cases heq
      exact ⟨k, marker, hleads, eq_false_of_ne_true hany, hparts⟩
  · rw [lineComment?_of_forall fun k marker hk => hleads ⟨k, marker, hk⟩] at h
    cases h

/-- Blanks before a place on a line are on that line. -/
theorem le_sub_runBefore (hline : Text.IsLine t n start stop) (hk : start ≤ k) (hle : k ≤ stop) :
    start ≤ k - t.runBefore isBlank k := by
  rcases hline.begins with hzero | hbreak
  · omega
  · by_cases hpos : start = 0
    · omega
    · have hblank : t.nextIs isBlank (start - 1) = false := by
        rw [Text.nextIs, hbreak]
        rfl
      have hlen := hline.stop_le
      have hrun := Text.runBefore_le_of_not_nextIs (i := k) (by omega) hblank (by omega)
      omega

/-- A line comment lies on its line and goes on to its end. -/
theorem bounds_of_lineComment? (hbreaks : Text.OnlyNewlines t) (hline : Text.IsLine t n start stop)
    (h : lineComment? t settings.markersByLength blocks n = .ok (some c)) :
    start ≤ c.span.start ∧ c.span.stop = stop := by
  obtain ⟨rfl, rfl⟩ := hline.eq_startOfLine hbreaks
  obtain ⟨k, marker, hleads, -, hparts⟩ := exists_of_lineComment? h
  obtain ⟨-, hstart, hstop⟩ := of_ofParts hparts
  rw [hstart]
  exact ⟨le_sub_runBefore hline hleads.start_le (Nat.le_of_lt hleads.lt_stop), hstop⟩

/-! ## All comments -/

/-- The comments of a text are the block comments and the line comments, in order. -/
theorem exists_all (h : all t settings = .ok cs) :
    ∃ blocks, Comment.blocks t settings = .ok blocks ∧
      (∀ c, c ∈ cs ↔ c ∈ blocks ∨ ∃ n < t.lineCount,
        lineComment? t settings.markersByLength blocks n = .ok (some c)) ∧
      (∀ n < t.lineCount, ∃ o, lineComment? t settings.markersByLength blocks n = .ok o) ∧
      cs.Pairwise fun a b => a.span.start ≤ b.span.start := by
  obtain ⟨blocks, hblocks, h⟩ := bind_eq_ok.1 h
  obtain ⟨lines, hlines, h⟩ := bind_eq_ok.1 h
  cases h
  refine ⟨blocks, hblocks, fun c => ?_, fun n hn => ?_, ?_⟩
  · rw [List.mem_mergeSort, List.mem_append, List.mem_filterMap]
    refine or_congr_right ⟨?_, ?_⟩
    · rintro ⟨o, ho, rfl⟩
      obtain ⟨n, hn, hline⟩ := exists_of_mapM hlines ho
      exact ⟨n, List.mem_range.1 hn, hline⟩
    · rintro ⟨n, hn, hline⟩
      obtain ⟨o, ho, hline'⟩ := mem_of_mapM hlines (List.mem_range.2 hn)
      cases hline.symm.trans hline'
      exact ⟨_, ho, rfl⟩
  · obtain ⟨o, -, hline⟩ := mem_of_mapM hlines (List.mem_range.2 hn)
    exact ⟨o, hline⟩
  · refine (List.pairwise_mergeSort (fun a b c hab hbc => ?_) (fun a b => ?_) _).imp of_decide_eq_true
    · exact decide_eq_true (Nat.le_trans (of_decide_eq_true hab) (of_decide_eq_true hbc))
    · simpa using Nat.le_total a.span.start b.span.start

/-- What is found around a place is one of the comments. -/
theorem exists_all_of_around? (h : around? t settings s = .ok (some c)) :
    ∃ cs, all t settings = .ok cs ∧ c ∈ cs := by
  obtain ⟨cs, hcs, h⟩ := bind_eq_ok.1 h
  refine ⟨cs, hcs, ?_⟩
  rcases Option.or_eq_some_iff.1 (Except.ok.inj h) with hfind | ⟨-, hfind⟩
  · exact List.mem_of_find?_eq_some hfind
  · exact List.mem_of_find?_eq_some hfind

/-! ## The comment of a line

From here on comments are marked as they are where nothing is configured. -/

theorem mem_default_iff :
    marker ∈ Settings.default.lineMarkers ↔ marker = ['/', '/'] ∨ marker = ['#'] := by
  rw [show Settings.default.lineMarkers = [['/', '/'], ['#']] from rfl, List.mem_cons,
    List.mem_singleton]

/-- No place begins with two markers. -/
theorem Begins.unique {marker' : Text} (h : Begins Settings.default t k marker)
    (h' : Begins Settings.default t k marker') : marker = marker' := by
  have hstands := h.stands
  have hstands' := h'.stands
  rcases mem_default_iff.1 h.mem with rfl | rfl
  · rcases mem_default_iff.1 h'.mem with rfl | rfl
    · rfl
    · exact absurd (List.prefix_of_prefix_length_le hstands' hstands (by decide)) (by decide)
  · rcases mem_default_iff.1 h'.mem with rfl | rfl
    · exact absurd (List.prefix_of_prefix_length_le hstands hstands' (by decide)) (by decide)
    · rfl

/-- No marker is blank. -/
theorem Begins.not_blank (h : Begins Settings.default t k marker) : t.nextIs isBlank k = false := by
  have hstands := h.stands
  rcases mem_default_iff.1 h.mem with rfl | rfl
  · rw [Text.nextIs, ← Nat.add_zero k, Text.getElem?_of_prefix_after hstands (by decide)]
    rfl
  · rw [Text.nextIs, ← Nat.add_zero k, Text.getElem?_of_prefix_after hstands (by decide)]
    rfl

/-- `marker`, at `k`, is the first on the line from `start` to `stop` that may begin a comment and
does not lie in a block comment. -/
structure Opens (t : Text) (start stop k : Nat) (marker : Text) : Prop where
  start_le : start ≤ k
  lt_stop : k < stop
  begins : Begins Settings.default t k marker
  outside : ¬InBlock Settings.default t k
  first : ∀ i < k, start ≤ i → ∀ m, Begins Settings.default t i m → InBlock Settings.default t i

section

variable (hline : Text.IsLine t n start stop) (hquote : ∀ i < stop, start ≤ i → t[i]? ≠ some '"')
  (hbreaks : Text.OnlyNewlines t) (hopens : Opens t start stop k marker)
  (hblocks : Comment.blocks t Settings.default = .ok blocks)
include hline hquote hbreaks hopens hblocks

/-- If no marker stands before it, the marker that opens the comment of a line is found. -/
theorem lineComment?_of_first (hfirst : ∀ i < k, start ≤ i → ∀ m, ¬Begins Settings.default t i m) :
    lineComment? t Settings.default.markersByLength blocks n =
      some <$> ofParts t k (k + marker.length) stop stop := by
  obtain ⟨rfl, rfl⟩ := hline.eq_startOfLine hbreaks
  have hlt := hopens.lt_stop
  have hunquoted : Unquoted t false (t.startOfLine n) k :=
    unquoted_of_forall (fun i hi hsi => hquote i (by omega) hsi) hopens.start_le
  have hleads : Leads Settings.default t n k marker :=
    ⟨hopens.start_le, hlt, hunquoted, hopens.begins,
      fun m _ hm => Nat.le_of_eq (by rw [hm.unique hopens.begins]),
      fun i hi hle _ m _ => hfirst i hi hle m⟩
  rw [lineComment?_of_leads hleads]
  exact if_neg (mt (any_blocks_iff hblocks hopens.begins.not_blank).1 hopens.outside)

/-- If a marker stands before it, no line comment is found on the line. -/
theorem lineComment?_of_hidden {i : Nat} {m : Text} (hi : i < k) (hsi : start ≤ i)
    (hbegins : Begins Settings.default t i m) :
    lineComment? t Settings.default.markersByLength blocks n = .ok none := by
  obtain ⟨rfl, rfl⟩ := hline.eq_startOfLine hbreaks
  have hlt := hopens.lt_stop
  by_cases hleads : ∃ k' marker', Leads Settings.default t n k' marker'
  · obtain ⟨k', marker', hleads⟩ := hleads
    -- The marker of the line stands where `i` is or before, so it is in a block comment.
    have hle : k' ≤ i := by
      refine Nat.le_of_not_lt fun hlt' => hleads.first i hlt' hsi ?_ m hbegins.mem hbegins
      exact unquoted_of_forall (fun j hj hsj => hquote j (by omega) hsj) hsi
    have hblock := hopens.first k' (by omega) hleads.start_le marker' hleads.begins
    rw [lineComment?_of_leads hleads]
    exact if_pos ((any_blocks_iff hblocks hleads.begins.not_blank).2 hblock)
  · exact lineComment?_of_forall fun k' marker' h => hleads ⟨k', marker', h⟩

end

/-- The line of a line comment is the line of every place that its span touches. -/
theorem line_of_touches (hbreaks : Text.OnlyNewlines t) {n' p : Nat} (hn : n' < t.lineCount)
    (hline : Text.IsLine t n start stop) (hp : start ≤ p) (hle : p ≤ stop)
    (hc : lineComment? t settings.markersByLength blocks n' = .ok (some c)) (htouches : c.span.touches p = true) :
    n' = n := by
  rw [Text.lineCount_eq_count hbreaks] at hn
  have hline' := Text.isLine_startOfLine hbreaks (Nat.le_of_lt_succ hn)
  obtain ⟨hstart, hstop⟩ := bounds_of_lineComment? hbreaks hline' hc
  rw [Span.touches_iff] at htouches
  rw [← hline.count_eq hp hle, hline'.count_eq (by omega) (by omega)]

/-- A block comment whose span does not start behind the marker that opens the comment of a line
ends before that marker. -/
theorem span_stop_le_of_block (hopens : Opens t start stop k marker)
    (hblocks : Comment.blocks t Settings.default = .ok blocks) (hc : c ∈ blocks)
    (h : c.span.start ≤ k) : c.span.stop ≤ k := by
  refine Nat.le_of_not_lt fun hlt => hopens.outside ?_
  refine (any_blocks_iff hblocks hopens.begins.not_blank).1 (List.any_eq_true.2 ⟨c, hc, ?_⟩)
  rw [decide_eq_true h, decide_eq_true hlt]
  rfl

/-- If no marker stands before the one that opens the comment of a line, that comment is found from
every place behind its marker. -/
theorem around?_of_first (hbreaks : Text.OnlyNewlines t) (hline : Text.IsLine t n start stop)
    (hquote : ∀ i < stop, start ≤ i → t[i]? ≠ some '"') (hopens : Opens t start stop k marker)
    (hfirst : ∀ i < k, start ≤ i → ∀ m, ¬Begins Settings.default t i m) (hlt : k < s.start)
    (hle : s.start ≤ stop) (h : around? t Settings.default s = .ok r) :
    ∃ c, r = some c ∧ Text.Trims t (k + marker.length) stop c.body.start c.body.stop ∧
      c.span.start = k - t.runBefore isBlank k ∧ c.span.stop = stop := by
  obtain ⟨cs, hcs, h⟩ := bind_eq_ok.1 h
  obtain ⟨blocks, hblocks, hmem, hlines, hsorted⟩ := exists_all hcs
  have hn : n < t.lineCount := by
    rw [Text.lineCount_eq_count hbreaks]
    exact Nat.lt_succ_of_le hline.le_count
  have hcomment := lineComment?_of_first hline hquote hbreaks hopens hblocks hfirst
  obtain ⟨o, ho⟩ := hlines n hn
  obtain ⟨c, hparts, -⟩ := map_eq_ok.1 (hcomment.symm.trans ho)
  rw [hparts] at hcomment
  obtain ⟨-, hstart, hstop⟩ := of_ofParts hparts
  have htrims := trims_of_ofParts hparts hline.stop_le
  have hstart_le := hopens.start_le
  have hc : c ∈ cs := (hmem c).2 (.inr ⟨n, hn, hcomment⟩)
  have htouches : c.span.touches s.start = true := Span.touches_iff.2 ⟨by omega, by omega⟩
  refine ⟨c, ?_, htrims, hstart, hstop⟩
  cases hfind : cs.find? (·.span.touches s.start) with
  | none => exact absurd htouches (List.find?_eq_none.1 hfind c hc)
  | some c' =>
    have heq : c = c' := by
      rcases eq_or_of_find? hsorted hfind hc htouches with heq | hbefore
      · exact heq
      · have htouches' := List.find?_some hfind
        rcases (hmem c').1 (List.mem_of_find?_eq_some hfind) with hblock | ⟨n', hn', hc'⟩
        · -- A block comment that starts there ends before the marker.
          have hstop' := span_stop_le_of_block hopens hblocks hblock (by omega)
          rw [Span.touches_iff] at htouches'
          omega
        · have hn'' := line_of_touches hbreaks hn' hline (by omega) hle hc' htouches'
          rw [hn'', hcomment] at hc'
          cases hc'
          rfl
    have hr : (cs.find? (·.span.touches s.start)).or (cs.find? fun c =>
        decide (t.lineStart s.start ≤ c.span.start) && decide (c.span.start < t.lineEnd s.start)) = r :=
      Except.ok.inj h
    rw [hfind, Option.some_or] at hr
    rw [← hr, heq]

/-- If a marker stands before the one that opens the comment of a line, that comment is not among
the comments. -/
theorem not_mem_all_of_hidden (hbreaks : Text.OnlyNewlines t) (hline : Text.IsLine t n start stop)
    (hquote : ∀ i < stop, start ≤ i → t[i]? ≠ some '"') (hopens : Opens t start stop k marker)
    {i : Nat} {m : Text} (hi : i < k) (hsi : start ≤ i) (hbegins : Begins Settings.default t i m)
    (hcs : all t Settings.default = .ok cs) (hc : c ∈ cs)
    (hstart : c.span.start = k - t.runBefore isBlank k) : c.span.stop ≠ stop := by
  intro hstop
  obtain ⟨blocks, hblocks, hmem, -, -⟩ := exists_all hcs
  have hlt := hopens.lt_stop
  rcases (hmem c).1 hc with hblock | ⟨n', hn', hc'⟩
  · have := span_stop_le_of_block hopens hblocks hblock (by omega)
    omega
  · have htouches : c.span.touches stop = true := Span.touches_iff.2 ⟨by omega, by omega⟩
    rw [line_of_touches hbreaks hn' hline hline.start_le_stop (Nat.le_refl _) hc' htouches,
      lineComment?_of_hidden hline hquote hbreaks hopens hblocks hi hsi hbegins] at hc'
    cases hc'

end VoiceEdit.Comment
