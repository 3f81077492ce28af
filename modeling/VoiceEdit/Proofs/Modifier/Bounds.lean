import VoiceEdit.Proofs.Code.Nested
import VoiceEdit.Proofs.Code.Overrunning
import VoiceEdit.Proofs.Modifier.Within
import VoiceEdit.Proofs.Prose.Bounds
import VoiceEdit.Proofs.Word.Bounds

/-!
# Modifiers stay in the text

On a text within the limit of spans no modifier fails for a span it cannot build: it
answers a target in the text, or it finds nothing and is of a kind that must. Settings
matter for comments alone, where no line marker may overrun its line.

Results:

* `find_comments`, `finds_comment`: the comment that is taken, of all comments.
* `finds_find`: whatever a modifier looks for, it finds in the text or not at all.
* `step_settles`, `steps_settles`: one step, and any number of them.
* `apply_stays_within`: a modifier applied to a target in the text, by default settings.
-/
namespace VoiceEdit.Modifier

variable {m : Modifier} {env : Setting} {t : Text} {s : Span} {target : Target}

/-! ## What a modifier looks for -/

theorem finds_selectSpan {r : Except Span.Error (Option Span)} (h : FindsSpan t r) :
    Finds t (selectSpan r) := by
  refine Yields.map h fun o ho f hf => ?_
  obtain ⟨s, hs, rfl⟩ := Option.map_eq_some_iff.1 hf
  exact ho s hs

/-- A span that is found without fail. -/
theorem finds_select {o : Option Span} (h : ∀ s ∈ o, s.stop ≤ t.length) :
    Finds t (selectSpan (.ok o)) := finds_selectSpan ⟨o, rfl, h⟩

theorem finds_targetOf {α : Type} {f : α → Except Span.Error Target} {o : Option α}
    (h : ∀ a ∈ o, Yields (f a) (·.Within t)) : Finds t (targetOf f o) := by
  cases o with
  | none => exact finds_none
  | some a => exact (h a rfl).finds_map

/-- The comment that is taken from `s` among the comments of the text. -/
def pick (t : Text) (s : Span) (cs : List Comment) : Place → Option Comment
  | .here => (cs.find? (·.span.touches s.start)).or (cs.find? fun c =>
      decide (t.lineStart s.start ≤ c.span.start) && decide (c.span.start < t.lineEnd s.start))
  | .first => cs.find? fun c => decide (t.lineStart s.start ≤ c.span.start)
  | .next => cs.find? fun c => decide (s.stop ≤ c.span.start)
  | .previous => cs.reverse.find? fun c => decide (c.span.stop ≤ s.start)

theorem mem_of_pick {cs : List Comment} {c : Comment} {o : Place} (h : pick t s cs o = some c) :
    c ∈ cs := by
  cases o with
  | here =>
    rcases Option.or_eq_some_iff.1 h with h | ⟨-, h⟩
    · exact List.mem_of_find?_eq_some h
    · exact List.mem_of_find?_eq_some h
  | first | next => exact List.mem_of_find?_eq_some h
  | previous => exact List.mem_reverse.1 (List.mem_of_find?_eq_some h)

/-- All comments are read before one of them is taken. -/
theorem find_comments {o : Place} (hkind : m.kind = .comment o) :
    m.find env t s = Comment.all t env.settings >>= fun cs => targetOf Comment.target (pick t s cs o) := by
  unfold find
  rw [hkind]
  cases o with
  | here | first | next | previous =>
    simp only [Comment.around?, Comment.first?, Comment.next?, Comment.previous?]
    cases Comment.all t env.settings with
    | error e => rfl
    | ok cs => rfl

theorem finds_comment {o : Place} (hkind : m.kind = .comment o) (ht : t.length ≤ Span.limit)
    (h : ¬Comment.Overruns env.settings t) : Finds t (m.find env t s) := by
  rw [find_comments hkind]
  refine (Comment.yields_all_of_not ht h).bind fun cs hcs => finds_targetOf fun c hc => ?_
  exact Comment.yields_target (hcs c (mem_of_pick hc))

/-- What a modifier for literals looks for is one that is read, or stands around. -/
theorem finds_literal {o : Place} (hkind : m.kind = .literal o) (ht : t.length ≤ Span.limit)
    (hs : s.stop ≤ t.length) : Finds t (m.find env t s) := by
  have hread {found : Option Literal} (h : ∀ l ∈ found, l ∈ Literal.all t m.delimiter) :
      Finds t (targetOf Literal.target found) :=
    finds_targetOf fun l hl => Literal.yields_target ht (Literal.mem_all_within (h l hl))
  unfold find
  rw [hkind]
  cases o with
  | here => exact finds_targetOf fun l hl => Literal.yields_target ht (Literal.around?_within hs hl)
  | first | next =>
    refine ((Literal.yields_checked ht).bind fun ls hls => .pure ?_).bind fun found hfound => hread hfound
    exact fun l hl => hls ▸ List.mem_of_find?_eq_some hl
  | previous =>
    refine ((Literal.yields_checked ht).bind fun ls hls => .pure ?_).bind fun found hfound => hread hfound
    exact fun l hl => hls ▸ List.mem_reverse.1 (List.mem_of_find?_eq_some hl)

/-- Whatever a modifier looks for, it finds in the text or not at all. -/
theorem finds_find (ht : t.length ≤ Span.limit) (hm : env.settings.OneLine)
    (hs : s.stop ≤ t.length) : Finds t (m.find env t s) := by
  have hle := s.start_le_stop
  by_cases hcomment : ∃ o, m.kind = .comment o
  · obtain ⟨o, hkind⟩ := hcomment
    exact finds_comment hkind ht (Comment.not_overruns hm)
  unfold find
  cases hkind : m.kind with
  | token d =>
    cases d with
    | next => exact Token.finds_next ht hs
    | previous => exact Token.finds_previous ht hs
  | search method proximity => exact Search.finds_find ht proximity _ env.lookup
  | comment o => exact absurd ⟨o, hkind⟩ hcomment
  | literal o =>
    have hliteral : Finds t (m.find env t s) := finds_literal hkind ht hs
    unfold find at hliteral
    rwa [hkind] at hliteral
  | call o =>
    cases o with
    | here => exact finds_selectSpan (Call.finds_around? ht)
    | first => exact finds_select fun _ hc => Call.mem_callsFrom_le ht (List.mem_of_head? hc)
    | next =>
      exact finds_select fun _ hc => Call.mem_callsFrom_le ht (List.mem_of_find?_eq_some hc)
    | previous =>
      exact finds_select fun _ hc => Call.mem_callsBefore_le ht (List.mem_of_find?_eq_some hc)
  | argument o =>
    cases o with
    | here => exact Argument.finds_around? ht hs
    | first => exact Argument.finds_first ht hs
    | next => exact Argument.finds_next ht
    | previous => exact Argument.finds_previous ht hs
  | brackets o =>
    cases o with
    | here => exact finds_selectSpan (Bracket.finds_around? ht)
    | first =>
      have hline := t.lineStart_le s.start
      exact finds_select fun _ hp => Bracket.pairFrom?_le (by omega) hp
    | next => exact finds_select fun _ hp => Bracket.pairFrom?_le hs hp
    | previous => exact finds_select fun _ hp => Bracket.previous?_le hp
  | indentedBlock => exact Block.finds_indented? ht
  | bracedBlock => exact finds_selectSpan (Block.finds_braced? ht)
  | sentence k step =>
    cases step with
    | here => exact (Sentence.yields_around k ht hs).finds_map
    | next => exact Sentence.finds_next? k ht
    | previous => exact Sentence.finds_previous? k ht hs
  | link => exact finds_selectSpan (Markdown.finds_link? ht hs)
  | sectionEnd => exact finds_select fun _ hp => by cases hp; exact Markdown.sectionEnd_le
  | line withBreak => exact finds_selectSpan (Line.yields_around ht withBreak hs).findsSpan
  | lineStart =>
    have hstart := Line.startOf_le t s
    refine finds_select fun p hp => ?_
    cases hp
    rw [Span.stop_point]
    omega
  | lineEnd => exact finds_select fun _ hp => by cases hp; exact Line.stopOf_le_length t s
  | betweenWhitespace => exact (Line.yields_betweenWhitespace ht hs).finds_map

/-! ## Applying it -/

/-- A target in the text, or nothing found where something must be. -/
def Settles (m : Modifier) (t : Text) (r : Except Error Target) : Prop :=
  Yields r (·.Within t) ∨ r = .error (.noMatch m.kind) ∧ m.kind.mustFind = true

theorem step_settles (hfinds : Finds t (m.find env t target.span)) (h : target.Within t) :
    m.Settles t (m.step env t target) := by
  obtain ⟨o, ho, hwithin⟩ := hfinds
  unfold step
  rw [ho]
  cases o with
  | some found => exact .inl ⟨found, rfl, hwithin found rfl⟩
  | none =>
    by_cases hmust : m.kind.mustFind = true
    · exact .inr ⟨if_pos hmust, hmust⟩
    · exact .inl ⟨target, if_neg hmust, h⟩

section

variable (hfinds : ∀ s : Span, s.stop ≤ t.length → Finds t (m.find env t s))
include hfinds

/-- The invariant of the repetitions is that the target is in the text. -/
theorem steps_settles (n : Nat) (h : target.Within t) : m.Settles t (m.steps env t n target) := by
  induction n generalizing target with
  | zero => exact .inl ⟨target, rfl, h⟩
  | succ n ih =>
    rw [steps_succ]
    rcases step_settles (hfinds target.span h.span_stop_le) h with
      ⟨found, hstep, hfound⟩ | ⟨hstep, hmust⟩
    · have hrest := ih hfound
      have hc := checkWithin_eq_ok_iff.2 hfound
      rw [hstep]
      simp only [bind, Except.bind, hc]
      exact hrest
    · rw [hstep]
      exact .inr ⟨rfl, hmust⟩

theorem apply_settles (hrep : m.repetitions ≠ 0) (h : target.Within t) :
    m.Settles t (m.apply env t target) := by
  by_cases hempty : t = []
  · exact .inl ⟨target, (apply_eq_ok_iff hrep).2 ⟨h, by rw [if_pos hempty]⟩, h⟩
  · rw [apply_eq_steps hrep hempty h]
    exact steps_settles hfinds m.repetitions h

end

/-- The kinds that must find something. -/
theorem mustFind_cases {k : Kind} (h : k.mustFind = true) :
    (∃ d, k = .token d) ∨ (∃ method proximity, k = .search method proximity) ∨
      k = .indentedBlock := by
  unfold Kind.mustFind at h
  split at h
  · exact .inl ⟨_, rfl⟩
  · exact .inr (.inl ⟨_, _, rfl⟩)
  · exact .inr (.inr rfl)
  · cases h

/-- **Modifiers stay in the text.** Applied by default settings to a target in a text
within the limit, a modifier of any kind answers a target in the text, whose removal
holds what it selects; or it is a step to a token, a search or an indented block, and
there is none. Nothing else ever happens. -/
theorem apply_stays_within (m : Modifier) (lookup : SpellingLookup) (t : Text) (target : Target)
    (ht : t.length ≤ Span.limit) (h : target.removed.stop ≤ t.length)
    (hrep : 1 ≤ m.repetitions) :
    (∃ found, m.apply ⟨Settings.default, lookup⟩ t target = .ok found ∧
      found.removed.contains found.span = true ∧ found.removed.stop ≤ t.length) ∨
    m.apply ⟨Settings.default, lookup⟩ t target = .error (.noMatch m.kind) ∧
      ((∃ d, m.kind = .token d) ∨ (∃ method proximity, m.kind = .search method proximity) ∨
        m.kind = .indentedBlock) := by
  have hrep' : m.repetitions ≠ 0 := by omega
  have hfinds (s : Span) (hs : s.stop ≤ t.length) : Finds t (m.find ⟨Settings.default, lookup⟩ t s) :=
    finds_find ht Settings.oneLine_default hs
  rcases apply_settles hfinds hrep' h with
    ⟨found, happly, hfound⟩ | ⟨happly, hmust⟩
  · exact .inl ⟨found, happly, found.contains_removed, hfound⟩
  · exact .inr ⟨happly, mustFind_cases hmust⟩

/-- The pair around a cursor, and then the pair around that one. -/
theorem apply_stays_within_brackets :
    let m : Modifier := { kind := .brackets .here, repetitions := 2 }
    let t : Text := ['(', 'a', '[', 'b', ']', ')']
    let target : Target := .ofSpan (.point 3)
    let found : Target := .ofSpan ⟨0, 6, by decide, by decide⟩
    t.length ≤ Span.limit ∧ target.removed.stop ≤ t.length ∧ 1 ≤ m.repetitions ∧
      m.apply ⟨Settings.default, .none⟩ t target = .ok found ∧
      found.removed.contains found.span = true ∧ found.removed.stop ≤ t.length := by
  intro m t target found
  have ht : t.length ≤ Span.limit := by decide
  have h : target.removed.stop ≤ t.length := by decide
  have hrep : 1 ≤ m.repetitions := by decide
  have happly : m.apply ⟨Settings.default, .none⟩ t target = .ok found := by rfl
  refine ⟨ht, h, hrep, happly, ?_⟩
  rcases apply_stays_within m .none t target ht h hrep with ⟨found', happly', hfound⟩ | ⟨herr, -⟩
  · rw [happly] at happly'
    cases happly'
    exact hfound
  · rw [happly] at herr
    cases herr

end VoiceEdit.Modifier
