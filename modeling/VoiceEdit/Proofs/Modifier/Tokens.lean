import VoiceEdit.Proofs.Modifier.Answers
import VoiceEdit.Proofs.Word.Tokens

/-!
# From token to token

Each step goes on to the nearest token that lies wholly behind what the last one selected, or wholly
before it. So `n` steps count off `n` of the tokens that lie there at first, and there is no match
where these are fewer.

Results:

* `steps_succ_countsOff`, `steps_countsOff`: one step and so many, from what each of them finds.
* `apply_token_counts`: the tokens behind a target and before it.
-/
namespace VoiceEdit.Modifier

open Text (IsRun)
open Token (Selects)

variable {m : Modifier} {env : Setting} {t : Text} {target found : Target} {kind : Kind}
  {o : Nat × Nat} {tokens rest : List (Nat × Nat)} {n : Nat} {r : Except Error Target}

/-- The first `n` of the tokens end within the limit of spans. -/
def Fits (tokens : List (Nat × Nat)) (n : Nat) : Prop := ∀ o ∈ tokens.take n, o.2 ≤ Span.limit

instance (tokens : List (Nat × Nat)) (n : Nat) : Decidable (Fits tokens n) :=
  inferInstanceAs (Decidable (∀ o ∈ tokens.take n, o.2 ≤ Span.limit))

/-- What counting off `n` of the tokens comes to. The `n`-th is selected; there is no match where
there are fewer. One that reaches beyond the limit of spans is refused when it is come to. -/
structure CountsOff (t : Text) (kind : Kind) (tokens : List (Nat × Nat)) (n : Nat)
    (r : Except Error Target) : Prop where
  nth : ∀ o, tokens[n - 1]? = some o → Fits tokens n → ∃ found, r = .ok found ∧ Selects t o found
  noMatch_iff : r = .error (.noMatch kind) ↔ tokens.length < n ∧ Fits tokens n
  refused_iff : (∃ e, r = .error (.span e)) ↔ ¬Fits tokens n

/-! ## Counting -/

theorem fits_nil (n : Nat) : Fits [] n := by
  intro o ho
  rw [List.take_nil] at ho
  cases ho

theorem fits_cons : Fits (o :: rest) (n + 1) ↔ o.2 ≤ Span.limit ∧ Fits rest n := by
  unfold Fits
  rw [List.take_succ_cons, List.forall_mem_cons]

theorem countsOff_nil (t : Text) (kind : Kind) (n : Nat) :
    CountsOff t kind [] (n + 1) (.error (.noMatch kind)) where
  nth o ho := by cases ho
  noMatch_iff := iff_of_true rfl ⟨Nat.succ_pos n, fits_nil _⟩
  refused_iff := iff_of_false (fun ⟨e, he⟩ => by cases he) fun h => h (fits_nil _)

theorem countsOff_refused (hlimit : Span.limit < o.2) (e : Span.Error) :
    CountsOff t kind (o :: rest) (n + 1) (.error (.span e)) := by
  have hnot : ¬Fits (o :: rest) (n + 1) := fun h => Nat.not_lt.2 (fits_cons.1 h).1 hlimit
  refine ⟨fun o _ h => absurd h hnot, ?_, iff_of_true ⟨e, rfl⟩ hnot⟩
  exact iff_of_false (fun h => by cases h) fun h => hnot h.2

theorem countsOff_one (hlimit : o.2 ≤ Span.limit) (h : Selects t o found) :
    CountsOff t kind (o :: rest) 1 (.ok found) := by
  have hfits : Fits (o :: rest) 1 := fits_cons.2 ⟨hlimit, fun _ ho => by cases ho⟩
  refine ⟨fun o' ho _ => ⟨found, rfl, ?_⟩, iff_of_false (fun h => by cases h) fun h => ?_,
    iff_of_false (fun ⟨e, he⟩ => by cases he) fun h => h hfits⟩
  · obtain rfl : o = o' := Option.some.inj ho
    exact h
  · exact Nat.not_lt.2 (Nat.succ_le_succ (Nat.zero_le _)) h.1

theorem CountsOff.cons (hlimit : o.2 ≤ Span.limit) (h : CountsOff t kind rest (n + 1) r) :
    CountsOff t kind (o :: rest) (n + 2) r := by
  have hfits : Fits (o :: rest) (n + 2) ↔ Fits rest (n + 1) :=
    fits_cons.trans (and_iff_right hlimit)
  refine ⟨fun o' ho hall => h.nth o' ho (hfits.1 hall), ?_, ?_⟩
  · rw [hfits, List.length_cons, Nat.succ_lt_succ_iff]
    exact h.noMatch_iff
  · rw [hfits]
    exact h.refused_iff

/-! ## Steps -/

/-- The first of some steps, and then the others, if they count off what is left behind the token that
the first one selects. -/
theorem steps_succ_countsOff (hmust : m.kind.mustFind = true)
    (hrun : ∀ o ∈ tokens, IsRun t isWord o.1 o.2)
    (hfind : m.find env t target.span =
      tokens.head?.elim (.ok none) fun o => some <$> Token.select t o)
    (hrest : ∀ o rest found, tokens = o :: rest → o.2 ≤ Span.limit → found.Within t →
      Selects t o found → CountsOff t m.kind tokens (n + 1) (m.steps env t n found)) :
    CountsOff t m.kind tokens (n + 1) (m.steps env t (n + 1) target) := by
  rw [steps_succ, step, hfind]
  cases tokens with
  | nil =>
    simp only [List.head?_nil, Option.elim_none, if_pos hmust]
    exact countsOff_nil t m.kind n
  | cons o rest =>
    simp only [List.head?_cons, Option.elim_some]
    by_cases hlimit : o.2 ≤ Span.limit
    · obtain ⟨found, hfound, hwithin, hselects⟩ :=
        Token.exists_select (hrun o List.mem_cons_self) hlimit
      rw [hfound]
      simp only [Except.map, Functor.map, bind, Except.bind, checkWithin_eq_ok_iff.2 hwithin]
      exact hrest o rest found rfl hlimit hwithin hselects
    · obtain ⟨e, he⟩ := Token.select_eq_error (t := t) (Nat.lt_of_not_le hlimit)
      rw [he]
      exact countsOff_refused (Nat.lt_of_not_le hlimit) e

/-- Where each step finds the first of the tokens that are left and leaves the others, so many steps
count off so many. -/
theorem steps_countsOff (left : Span → List (Nat × Nat)) (hmust : m.kind.mustFind = true)
    (hrun : ∀ s, ∀ o ∈ left s, IsRun t isWord o.1 o.2)
    (hfind : ∀ s, s.stop ≤ t.length → m.find env t s =
      (left s).head?.elim (.ok none) fun o => some <$> Token.select t o)
    (hleft : ∀ s o rest found, left s = o :: rest → Selects t o found → left found.span = rest)
    (ht : target.Within t) (n : Nat) :
    CountsOff t m.kind (left target.span) (n + 1) (m.steps env t (n + 1) target) := by
  induction n generalizing target with
  | zero =>
    refine steps_succ_countsOff hmust (hrun _) (hfind _ ht.span_stop_le)
      fun o rest found htokens hlimit _ hselects => ?_
    rw [htokens]
    exact countsOff_one hlimit hselects
  | succ n ih =>
    -- From the token that is come to first, so many others are counted off as are left behind it.
    refine steps_succ_countsOff hmust (hrun _) (hfind _ ht.span_stop_le)
      fun o rest found htokens hlimit hwithin hselects => ?_
    have hothers := ih hwithin
    rw [hleft _ o rest found htokens hselects] at hothers
    rw [htokens]
    exact hothers.cons hlimit

/-- **Tokens in turn.** In a text that is not empty, the runs of word characters are listed in their
order, with something else between them. The steps forwards count off those that start where the
target stops or behind it, and the steps backwards those that stop where it starts or before it,
nearest first. In a text within the limit of spans none of them reaches beyond it. -/
theorem apply_token_counts (env : Setting) (query : Option Text) (q : Char) (hne : t ≠ [])
    (ht : target.removed.stop ≤ t.length) (hn : 1 ≤ n) :
    (∀ start stop, (start, stop) ∈ t.runs isWord ↔ IsRun t isWord start stop) ∧
    (t.runs isWord).Pairwise (fun a b => a.2 < b.1) ∧
    (t.length ≤ Span.limit → ∀ o ∈ t.runs isWord, o.2 ≤ Span.limit) ∧
    CountsOff t (.token .next) ((t.runs isWord).filter (target.span.stop ≤ ·.1)) n
      (apply ⟨.token .next, n, query, q⟩ env t target) ∧
    CountsOff t (.token .previous) ((t.runs isWord).reverse.filter (·.2 ≤ target.span.start)) n
      (apply ⟨.token .previous, n, query, q⟩ env t target) := by
  obtain ⟨n, rfl⟩ := Nat.exists_eq_succ_of_ne_zero (Nat.ne_of_gt hn)
  refine ⟨fun start stop => Text.mem_runs_iff, Text.pairwise_runs t isWord,
    fun hlen o ho => Nat.le_trans (Text.mem_runs_bounds ho).2 hlen, ?_, ?_⟩
  · rw [apply_eq_steps (Nat.succ_ne_zero n) hne ht]
    refine steps_countsOff (m := ⟨.token .next, n + 1, query, q⟩) (fun s => Token.ahead t s.stop) rfl
      (fun s o ho => (Token.mem_ahead.1 ho).1) (fun s _ => Token.next_eq t s)
      (fun s o rest found htokens hselects => ?_) ht n
    simp only [hselects.stop_eq]
    exact Token.ahead_of_cons htokens
  · rw [apply_eq_steps (Nat.succ_ne_zero n) hne ht]
    refine steps_countsOff (m := ⟨.token .previous, n + 1, query, q⟩) (fun s => Token.back t s.start) rfl
      (fun s o ho => (Token.mem_back.1 ho).1)
      (fun s hs => Token.previous_eq (Nat.le_trans s.start_le_stop hs))
      (fun s o rest found htokens hselects => ?_) ht n
    simp only [hselects.start_eq]
    exact Token.back_of_cons htokens

/-- From inside the first of three tokens: the second one behind it, and no third. From the end of the
second: itself and the first, in this order, and no third. -/
theorem apply_token_counts_inside :
    let env : Setting := ⟨Settings.default, .none⟩
    let t : Text := ['a', 'b', ',', ' ', 'c', ' ', 'd']
    let inner : Target := .ofSpan (.point 1)
    let behind : Target := .ofSpan (.point 5)
    t ≠ [] ∧ inner.removed.stop ≤ t.length ∧ behind.removed.stop ≤ t.length ∧ 1 ≤ 2 ∧
      (∃ found, apply ⟨.token .next, 2, none, '"'⟩ env t inner = .ok found ∧ Selects t (6, 7) found) ∧
      apply ⟨.token .next, 3, none, '"'⟩ env t inner = .error (.noMatch (.token .next)) ∧
      (∃ found, apply ⟨.token .previous, 2, none, '"'⟩ env t behind = .ok found ∧
        Selects t (0, 2) found) ∧
      apply ⟨.token .previous, 3, none, '"'⟩ env t behind = .error (.noMatch (.token .previous)) := by
  intro env t inner behind
  have hruns : t.runs isWord = [(0, 2), (4, 5), (6, 7)] := by decide
  have counts {target : Target} (n : Nat) (hn : 1 ≤ n) (ht : target.removed.stop ≤ t.length) :=
    (apply_token_counts env none '"' (List.cons_ne_nil _ _) ht hn).2.2.2
  rw [hruns] at counts
  have hinner : inner.removed.stop ≤ t.length := by decide
  have hbehind : behind.removed.stop ≤ t.length := by decide
  refine ⟨List.cons_ne_nil _ _, hinner, hbehind, by decide, ?_, ?_, ?_, ?_⟩
  · exact (counts 2 (by decide) hinner).1.nth (6, 7) rfl (by decide)
  · exact (counts 3 (by decide) hinner).1.noMatch_iff.2 (by decide)
  · exact (counts 2 (by decide) hbehind).2.nth (0, 2) rfl (by decide)
  · exact (counts 3 (by decide) hbehind).2.noMatch_iff.2 (by decide)

end VoiceEdit.Modifier
