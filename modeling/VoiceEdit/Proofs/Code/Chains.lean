import VoiceEdit.Proofs.Code.Progress
import VoiceEdit.Proofs.Text.Pairs

/-!
# Chains

What is called is a chain: characters of a chain, each by what stands next to it, and groups in
parentheses or square brackets, each balanced in brackets of its own kind. Backwards, from the
parenthesis that opens the arguments, it is read over characters and over whole groups. Forwards it
is read over characters only, which ends at its first group. So a call is a chain and its arguments,
and from the start of a call its own arguments are reached if no group stands before them.

Results:

* `Chain.chainBefore_eq`, `chain_chainBefore`: whatever chain ends at a place is read from there, and
  what is read is a chain.
* `chain_calleeStart`: without the joints at its start it is one, too.
* `isCall_of_at?`: what is found at a parenthesis is a call.
* `chainEnd_eq`: how far a chain is read forwards.
* `at?_of_firstGroup`, `around?_of_firstGroup`: the calls within a call that start where it does, and
  which of them is found from there.
-/
namespace VoiceEdit.Call

variable {t : Text} {call : Span} {stop i o g c : Nat}

/-- The character at `i` belongs to a chain. -/
def ChainCharAt (t : Text) (i : Nat) : Prop :=
  ∃ c, t[i]? = some c ∧ isChainChar (t.prev? i) c t[i + 1]? = true

/-- A group in parentheses or in square brackets goes from `o` to `c`, balanced in brackets of its
own kind. -/
def GroupAt (t : Text) (o c : Nat) : Prop :=
  Pairs (· == '(') (· == ')') t o c ∨ Pairs (· == '[') (· == ']') t o c

/-- What goes from one place to `stop` is a chain: characters and groups. -/
inductive Chain (t : Text) (stop : Nat) : Nat → Prop
  | done : Chain t stop stop
  | char {i : Nat} (h : ChainCharAt t i) (rest : Chain t stop (i + 1)) : Chain t stop i
  | group {o c : Nat} (h : GroupAt t o c) (rest : Chain t stop (c + 1)) : Chain t stop o

/-- The span is a call: the parenthesis at `o` and the one at its end hold the arguments, and what
stands before them is a chain, which starts with no joint. -/
structure IsCall (t : Text) (call : Span) (o : Nat) : Prop where
  start_lt : call.start < o
  arguments : Pairs (· == '(') (· == ')') t o (call.stop - 1)
  callable : t.prevIs isCallable o = true
  not_joint : t.nextIs isJoint call.start = false
  chain : Chain t o call.start

/-- Behind characters only, from `s` on, the first group of a chain stands at `g`, or else the
arguments do, at `o`. -/
structure FirstGroup (t : Text) (s o g : Nat) : Prop where
  start_le : s ≤ g
  chars : ∀ k, s ≤ k → k < g → ChainCharAt t k
  group : g = o ∨ ∃ c < o, GroupAt t g c

/-- The first group of a chain from `s` on is an argument list: it stands behind something that can
be called. -/
structure OpensCall (t : Text) (s g : Nat) : Prop where
  lt : s < g
  opener : t[g]? = some '('
  callable : t.prevIs isCallable g = true

/-! ## Characters and groups -/

theorem not_closes_of_opens_paren (c : Char) (h : (c == '(') = true) : (c == ')') = false := by
  rw [eq_of_beq h]
  decide

theorem not_closes_of_opens_bracket (c : Char) (h : (c == '[') = true) : (c == ']') = false := by
  rw [eq_of_beq h]
  decide

/-- A bracket is no character of a chain, whatever stands next to it. -/
theorem ne_bracket_of_isChainChar {prev next : Option Char} {c : Char}
    (h : isChainChar prev c next = true) : c ≠ '(' ∧ c ≠ ')' ∧ c ≠ '[' ∧ c ≠ ']' := by
  have hword : isWord '(' = false ∧ isWord ')' = false ∧ isWord '[' = false ∧ isWord ']' = false := by
    decide
  refine ⟨?_, ?_, ?_, ?_⟩
  all_goals
    rintro rfl
    simp [isChainChar, hword] at h

theorem ChainCharAt.lt_length (h : ChainCharAt t i) : i < t.length := by
  obtain ⟨c, hc, -⟩ := h
  exact (List.getElem?_eq_some_iff.1 hc).1

theorem GroupAt.lt (h : GroupAt t o c) : o < c := h.elim Pairs.lt Pairs.lt

theorem GroupAt.opener (h : GroupAt t o c) : t[o]? = some '(' ∨ t[o]? = some '[' := by
  rcases h with h | h
  · obtain ⟨c, hc, heq⟩ := Text.nextIs_iff.1 h.opener
    exact .inl (by rw [hc, eq_of_beq heq])
  · obtain ⟨c, hc, heq⟩ := Text.nextIs_iff.1 h.opener
    exact .inr (by rw [hc, eq_of_beq heq])

theorem not_chainCharAt_of_opener (h : t[i]? = some '(' ∨ t[i]? = some '[') : ¬ChainCharAt t i := by
  rintro ⟨c, hc, hchain⟩
  have hne := ne_bracket_of_isChainChar hchain
  rcases h with h | h
  · rw [hc] at h
    exact hne.1 (Option.some.inj h)
  · rw [hc] at h
    exact hne.2.2.1 (Option.some.inj h)

theorem not_isJoint_of_opener (h : t[i]? = some '(' ∨ t[i]? = some '[') :
    t.nextIs isJoint i = false := by
  unfold Text.nextIs
  rcases h with h | h <;> rw [h] <;> rfl

theorem Chain.le (h : Chain t stop i) : i ≤ stop := by
  induction h with
  | done => exact Nat.le_refl _
  | char _ _ ih => omega
  | group h _ ih =>
    have := h.lt
    omega

theorem chain_of_chars (hle : i ≤ stop) (h : ∀ k, i ≤ k → k < stop → ChainCharAt t k) :
    Chain t stop i := by
  obtain ⟨n, rfl⟩ := Nat.exists_eq_add_of_le hle
  induction n generalizing i with
  | zero => exact .done
  | succ n ih =>
    refine .char (h i (Nat.le_refl _) (by omega)) ?_
    rw [show i + (n + 1) = i + 1 + n by omega] at h ⊢
    exact ih (by omega) fun k hk hlt => h k (by omega) hlt

/-! ## Read backwards -/

/-- Where the chain before a place starts, read backwards from there as far as it goes. -/
def chainBefore (t : Text) (i : Nat) : Nat := chainStart 0 t[i]? (t.before i)

/-- What is to be skipped is skipped. -/
theorem chainStart_skip {skip : Nat} (hskip : skip ≤ i) (hi : i ≤ t.length) :
    chainStart skip t[i]? (t.before i) = chainBefore t (i - skip) := by
  induction skip generalizing i with
  | zero => rfl
  | succ skip ih =>
    obtain ⟨k, rfl⟩ := Nat.exists_eq_add_of_lt (Nat.lt_of_lt_of_le (Nat.succ_pos skip) hskip)
    rw [Nat.zero_add] at hskip hi ⊢
    have hc : t[k]? = some t[k] := List.getElem?_eq_getElem hi
    rw [Text.before_succ hc, chainStart, ← hc, ih (by omega) (by omega)]
    congr 1
    omega

/-- A character of a chain is read over. -/
theorem chainBefore_char (h : ChainCharAt t i) : chainBefore t (i + 1) = chainBefore t i := by
  have hi := h.lt_length
  obtain ⟨c, hc, hchain⟩ := h
  have hne := ne_bracket_of_isChainChar hchain
  rw [chainBefore, Text.before_succ hc, chainStart, if_neg (by simp [hne]),
    Text.head?_before (Nat.le_of_lt hi), if_pos hchain, ← hc]
  rfl

theorem chainStart_closer {opener closer : Char} (hcloser : closer = ')' ∨ closer = ']')
    (hopener : (if closer = ')' then '(' else '[') = opener) (next : Option Char)
    (rest : List Char) : chainStart 0 next (closer :: rest) =
      ((unclosed (· == opener) (· == closer) 0 rest).head?.map fun o =>
        chainStart (rest.length - o) (some closer) rest).getD (rest.length + 1) := by
  rw [chainStart, if_pos hcloser, hopener]
  cases ho : (unclosed (· == opener) (· == closer) 0 rest).head? with
  | none => simp only [ho, Option.map_none, Option.getD_none]
  | some o => simp only [ho, Option.map_some, Option.getD_some]

/-- A group is read over. -/
theorem chainBefore_group (h : GroupAt t o c) : chainBefore t (c + 1) = chainBefore t o := by
  have passes {opener closer : Char} (hcloser : closer = ')' ∨ closer = ']')
      (hopener : (if closer = ')' then '(' else '[') = opener)
      (hdisjoint : ∀ c, (c == opener) = true → (c == closer) = false)
      (h : Pairs (· == opener) (· == closer) t o c) : chainBefore t (c + 1) = chainBefore t o := by
    have hlt := h.lt
    have hlen := h.lt_length
    obtain ⟨d, hd, heq⟩ := Text.nextIs_iff.1 h.closer
    obtain rfl := eq_of_beq heq
    have ho : (unclosed (· == opener) (· == d) 0 (t.before c)).head? = some o :=
      (Text.unclosedBefore?_eq_some_iff hdisjoint (Nat.le_of_lt hlen)).2 ⟨hlt, h.opener, h.balanced⟩
    rw [chainBefore, Text.before_succ hd, chainStart_closer hcloser hopener, ho, Option.map_some,
      Option.getD_some, t.length_before, Nat.min_eq_left (Nat.le_of_lt hlen), ← hd,
      chainStart_skip (Nat.sub_le _ _) (Nat.le_of_lt hlen)]
    congr 1
    omega
  rcases h with h | h
  · exact passes (.inl rfl) rfl not_closes_of_opens_paren h
  · exact passes (.inr rfl) rfl not_closes_of_opens_bracket h

/-- Whatever chain ends at a place is read over from there. -/
theorem Chain.chainBefore_eq (h : Chain t stop i) : chainBefore t stop = chainBefore t i := by
  induction h with
  | done => rfl
  | char h _ ih => rw [ih, chainBefore_char h]
  | group h _ ih => rw [ih, chainBefore_group h]

/-- The reading ends at a place, or goes over the character or the group before it. -/
theorem chainBefore_cases (hi : i ≤ t.length) : chainBefore t i = i ∨
    (∃ k, i = k + 1 ∧ ChainCharAt t k) ∨ ∃ o c, i = c + 1 ∧ GroupAt t o c := by
  cases i with
  | zero => exact .inl (Nat.le_zero.1 (chainStart_le 0 _ _))
  | succ k =>
    have hc : t[k]? = some t[k] := List.getElem?_eq_getElem hi
    have hlen : (t.before k).length = k := by
      rw [t.length_before]
      omega
    have closes {opener closer : Char} (hcloser : closer = ')' ∨ closer = ']')
        (hopener : (if closer = ')' then '(' else '[') = opener)
        (hdisjoint : ∀ c, (c == opener) = true → (c == closer) = false) (heq : t[k] = closer) :
        chainBefore t (k + 1) = k + 1 ∨ ∃ o, Pairs (· == opener) (· == closer) t o k := by
      rw [chainBefore, Text.before_succ hc, heq, chainStart_closer hcloser hopener]
      cases ho : (unclosed (· == opener) (· == closer) 0 (t.before k)).head? with
      | none => exact .inl (by rw [Option.map_none, Option.getD_none, hlen])
      | some o =>
        obtain ⟨hlt, hat, hdepth⟩ :=
          (Text.unclosedBefore?_eq_some_iff hdisjoint (Nat.le_of_lt hi)).1 ho
        exact .inr ⟨o, hat, hlt, hdepth, Text.nextIs_iff.2 ⟨_, hc, beq_iff_eq.2 heq⟩⟩
    by_cases hparen : t[k] = ')'
    · rcases closes (.inl rfl) rfl not_closes_of_opens_paren hparen with hend | ⟨o, ho⟩
      · exact .inl hend
      · exact .inr (.inr ⟨o, k, rfl, .inl ho⟩)
    by_cases hbracket : t[k] = ']'
    · rcases closes (.inr rfl) rfl not_closes_of_opens_bracket hbracket with hend | ⟨o, ho⟩
      · exact .inl hend
      · exact .inr (.inr ⟨o, k, rfl, .inr ho⟩)
    by_cases hchain : isChainChar (t.prev? k) t[k] t[k + 1]? = true
    · exact .inr (.inl ⟨k, rfl, _, hc, hchain⟩)
    · rw [chainBefore, Text.before_succ hc, chainStart, if_neg (by simp [hparen, hbracket]),
        Text.head?_before (Nat.le_of_lt hi), if_neg hchain, hlen]
      exact .inl rfl

/-- What is read over before a chain is put before it. -/
theorem Chain.extend (hi : i ≤ t.length) (h : Chain t stop i) : Chain t stop (chainBefore t i) := by
  induction i using Nat.strongRecOn with
  | ind i ih =>
    rcases chainBefore_cases hi with hend | ⟨k, rfl, hchar⟩ | ⟨o, c, rfl, hgroup⟩
    · rwa [hend]
    · rw [chainBefore_char hchar]
      exact ih k (Nat.lt_succ_self k) (by omega) (.char hchar h)
    · have hlt := hgroup.lt
      rw [chainBefore_group hgroup]
      exact ih o (by omega) (by omega) (.group hgroup h)

theorem chain_chainBefore (hi : i ≤ t.length) : Chain t i (chainBefore t i) := Chain.extend hi .done

/-! ## Joints -/

/-- A joint at the start of a chain can be left out. -/
theorem Chain.tail (h : Chain t stop i) (hlt : i < stop) (hjoint : t.nextIs isJoint i = true) :
    Chain t stop (i + 1) := by
  cases h with
  | done => omega
  | char _ rest => exact rest
  | group hgroup _ =>
    rw [not_isJoint_of_opener hgroup.opener] at hjoint
    cases hjoint

theorem Chain.add {n : Nat} (h : Chain t stop i) (hle : i + n ≤ stop)
    (hjoints : ∀ k, i ≤ k → k < i + n → t.nextIs isJoint k = true) : Chain t stop (i + n) := by
  induction n with
  | zero => exact h
  | succ n ih =>
    have hrest := ih (by omega) fun k hk hlt => hjoints k hk (by omega)
    exact hrest.tail (by omega) (hjoints (i + n) (Nat.le_add_right _ _) (by omega))

theorem calleeStart_eq (t : Text) (o : Nat) : calleeStart t o = chainBefore t o +
    min (t.runAfter isJoint (chainBefore t o)) (o - chainBefore t o) := rfl

/-- A callee is a chain. -/
theorem chain_calleeStart (h : o ≤ t.length) : Chain t o (calleeStart t o) := by
  have hchain := chain_chainBefore h
  have hle := hchain.le
  rw [calleeStart_eq]
  refine hchain.add (by omega) fun k hk hlt => ?_
  exact Text.nextIs_of_lt_add_runAfter hk (by omega)

/-- A callee starts behind the joints that the chain starts with. -/
theorem calleeStart_of_lt (h : calleeStart t o < o) :
    calleeStart t o = chainBefore t o + t.runAfter isJoint (chainBefore t o) := by
  rw [calleeStart_eq] at h ⊢
  omega

/-! ## Calls -/

/-- What is found at a parenthesis is a call. -/
theorem isCall_of_at? (h : at? t o = .ok (some call)) : IsCall t call o := by
  obtain ⟨harguments, hlt, closer, hclose, hstart, hstop⟩ := at?_eq_ok_some_iff.1 h
  obtain ⟨hopener, hcloser⟩ := Text.closing?_bounds hclose
  rw [← hstart] at hlt
  have hpair := (Text.closing?_eq_some_iff not_closes_of_opens_paren).1 hclose
  refine ⟨hlt, ?_, harguments, ?_, ?_⟩
  · rwa [hstop, Nat.add_sub_cancel]
  · rw [hstart] at hlt ⊢
    rw [calleeStart_of_lt hlt]
    exact t.not_nextIs_add_runAfter _ _
  · rw [hstart]
    exact chain_calleeStart (by omega)

/-- Its arguments are an argument list behind its start. -/
theorem IsCall.opensCall (h : IsCall t call o) : OpensCall t call.start o := by
  obtain ⟨c, hc, heq⟩ := Text.nextIs_iff.1 h.arguments.opener
  exact ⟨h.start_lt, by rw [hc, eq_of_beq heq], h.callable⟩

theorem stop_le_of_at? (h : at? t o = .ok (some call)) : call.stop ≤ t.length := by
  have hcall := isCall_of_at? h
  have hstart := hcall.start_lt
  have harguments := hcall.arguments.lt_length
  omega

/-! ## Read forwards -/

/-- How far a chain is read forwards: over characters only. -/
def chainEnd (t : Text) (i : Nat) : Nat := i + chainLength (t.prev? i) (t.after i)

theorem chainEnd_succ (h : ChainCharAt t i) : chainEnd t i = chainEnd t (i + 1) := by
  obtain ⟨c, hc, hchain⟩ := h
  have hnext : (t.after (i + 1)).head? = t[i + 1]? := List.head?_drop
  rw [chainEnd, chainEnd, Text.after_eq_cons hc, chainLength, hnext, if_pos hchain, Text.prev?_succ hc]
  omega

theorem chainEnd_eq_self (h : ¬ChainCharAt t i) : chainEnd t i = i := by
  rw [chainEnd]
  cases hcs : t.after i with
  | nil => rfl
  | cons c rest =>
    obtain ⟨hc, hrest⟩ := Text.of_after_eq_cons hcs
    have hnext : rest.head? = t[i + 1]? := hrest ▸ List.head?_drop
    rw [chainLength, hnext, if_neg fun hchain => h ⟨c, hc, hchain⟩]
    rfl

/-- A chain is read forwards up to what is no character of one. -/
theorem chainEnd_eq (hle : i ≤ g) (h : ∀ k, i ≤ k → k < g → ChainCharAt t k)
    (hend : ¬ChainCharAt t g) : chainEnd t i = g := by
  obtain ⟨n, rfl⟩ := Nat.exists_eq_add_of_le hle
  induction n generalizing i with
  | zero => exact chainEnd_eq_self hend
  | succ n ih =>
    rw [chainEnd_succ (h i (Nat.le_refl _) (by omega))]
    rw [show i + (n + 1) = i + 1 + n by omega] at h hend ⊢
    exact ih (by omega) (fun k hk hlt => h k (by omega) hlt) hend

/-- Every chain has a first group, or comes to its end. -/
theorem Chain.exists_firstGroup (h : Chain t o i) : ∃ g, FirstGroup t i o g := by
  induction h with
  | done => exact ⟨o, Nat.le_refl _, fun k hk hlt => by omega, .inl rfl⟩
  | @char i hchar _ ih =>
    obtain ⟨g, hg⟩ := ih
    refine ⟨g, Nat.le_of_succ_le hg.start_le, fun k hk hlt => ?_, hg.group⟩
    rcases Nat.eq_or_lt_of_le hk with rfl | hk
    · exact hchar
    · exact hg.chars k hk hlt
  | @group i c hgroup rest _ =>
    exact ⟨i, Nat.le_refl _, fun k hk hlt => by omega, .inr ⟨c, rest.le, hgroup⟩⟩

/-! ## From the start of a call -/

section

variable (hat : at? t o = .ok (some call)) (hg : FirstGroup t call.start o g)
include hat hg

/-- From its start a call is read forwards as far as its first group. -/
theorem chainEnd_of_firstGroup : chainEnd t call.start = g := by
  refine chainEnd_eq hg.start_le hg.chars (not_chainCharAt_of_opener ?_)
  rcases hg.group with rfl | ⟨c, -, hgroup⟩
  · obtain ⟨c, hc, heq⟩ := Text.nextIs_iff.1 (isCall_of_at? hat).arguments.opener
    exact .inl (by rw [hc, eq_of_beq heq])
  · exact hgroup.opener

/-- Read backwards from its first group, a call starts where it does from its arguments. -/
theorem calleeStart_of_firstGroup : calleeStart t g = call.start := by
  obtain ⟨-, hlt, -, -, hstart, -⟩ := at?_eq_ok_some_iff.1 hat
  have hcallee := calleeStart_of_lt hlt
  have hsame : chainBefore t g = chainBefore t o :=
    (chain_of_chars hg.start_le hg.chars).chainBefore_eq.trans
      (isCall_of_at? hat).chain.chainBefore_eq.symm
  have hle := hg.start_le
  rw [calleeStart_eq, hsame]
  omega

/-- A first group that is an argument list holds the arguments of a call that starts where the whole
call does. -/
theorem at?_of_firstGroup (hopens : OpensCall t call.start g) :
    ∃ first, at? t g = .ok (some first) ∧ first.start = call.start := by
  have hlt := hopens.lt
  rcases hg.group with rfl | ⟨c, hc, hgroup | hgroup⟩
  · exact ⟨call, hat, rfl⟩
  · have hcall := isCall_of_at? hat
    have hstart := hcall.start_lt
    have harguments := hcall.arguments.lt
    have hgc := hgroup.lt
    have hlimit := call.stop_le_limit (by omega)
    refine ⟨⟨call.start, c + 1, by omega, fun _ => by omega⟩, at?_eq_ok_some_iff.2 ?_, rfl⟩
    have hcallee := calleeStart_of_firstGroup hat hg
    exact ⟨hopens.callable, by omega, c,
      (Text.closing?_eq_some_iff not_closes_of_opens_paren).2 hgroup, hcallee.symm, rfl⟩
  · obtain ⟨d, hd, heq⟩ := Text.nextIs_iff.1 hgroup.opener
    rw [hopens.opener] at hd
    cases hd
    cases heq

/-- So a call is found from the start of a call. -/
theorem around?_of_firstGroup (hopens : OpensCall t call.start g) :
    ∃ first, around? t (.point call.start) = .ok (some first) ∧ at? t g = .ok (some first) ∧
      first.start = call.start := by
  obtain ⟨first, hfirst, hstart⟩ := at?_of_firstGroup hat hg hopens
  have hopener : openerAt? t call.start = some g := by
    have hend := chainEnd_of_firstGroup hat hg
    unfold chainEnd at hend
    have hnext : t.nextIs (· == '(') g = true := Text.nextIs_iff.2 ⟨_, hopens.opener, rfl⟩
    simp only [openerAt?, hend, hnext, opensArguments, hopens.callable, Bool.and_self, if_true]
  refine ⟨first, ?_, hfirst, hstart⟩
  simp only [around?, Span.start_point, hopener]
  exact hfirst

/-- Where the first group of a call is no argument list, none that starts there is found from its
start. -/
theorem start_lt_of_around? {first : Span} (hnot : ¬OpensCall t call.start g)
    (h : around? t (.point call.start) = .ok (some first)) : first.start < call.start := by
  have hend := chainEnd_of_firstGroup hat hg
  unfold chainEnd at hend
  simp only [around?, Span.start_point, openerAt?, hend] at h
  by_cases hreach : (t.nextIs (· == '(') g && opensArguments t g) = true
  · simp only [if_pos hreach] at h
    rw [Bool.and_eq_true] at hreach
    obtain ⟨c, hc, heq⟩ := Text.nextIs_iff.1 hreach.1
    rw [eq_of_beq heq] at hc
    have hle := hg.start_le
    have hempty := (at?_eq_ok_some_iff.1 h).2.1
    rw [calleeStart_of_firstGroup hat hg] at hempty
    exact absurd ⟨hempty, hc, hreach.2⟩ hnot
  · simp only [if_neg hreach] at h
    cases hfind : (t.groupsAround (· == '(') (· == ')') call.start).find? (opensArguments t) with
    | none =>
      rw [hfind] at h
      cases h
    | some o' =>
      rw [hfind] at h
      have hbefore := Text.mem_groupsAround_lt (List.mem_of_find?_eq_some hfind)
      obtain ⟨-, hlt, -, -, hstart, -⟩ := at?_eq_ok_some_iff.1 h
      omega

end

end VoiceEdit.Call
