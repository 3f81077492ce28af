import VoiceEdit.Proofs.Command.NetEffect
import VoiceEdit.Proofs.Editor.Spelling
import VoiceEdit.Proofs.Modifier.Within

/-!
# Sessions

A session asks an editor for one command after another. Each request says whether the
host can only press keys, and brings its own settings, homophones and replacement; the
command runs on what the editor shows, and its edits are carried out there.

Results:

* `apply_of_run`: in both kinds of host, edits that can be carried out are.
* `serve_refused`: a command that is refused changes nothing.
* `serve_safe`: a request keeps the selection in the text, and no edits of a command fail.
* `serveAll_safe`: neither does any request of a session, whatever was asked before.
-/
namespace VoiceEdit

/-- A command, and the host it is asked in. -/
structure Request where
  keysOnly : Bool
  command : Command
  host : Command.Host

/-- How a request ends: there are no edits to make, the edits fail, or they are made and
leave something in the clipboard or not. -/
inductive Outcome where
  | refused (err : Command.Error)
  | failed (err : Editor.Error)
  | done (clip : Option Text)
deriving DecidableEq, Repr

namespace Editor

/-- Runs a command on what the editor shows and carries out its edits. -/
def serve (e : Editor) (r : Request) : Editor × Outcome :=
  let e := { e with keysOnly := r.keysOnly }
  match r.command.run r.host e.text e.selection with
  | .error err => (e, .refused err)
  | .ok edits =>
    match e.apply edits with
    | (after, .error err) => (after, .failed err)
    | (after, .ok clip) => (after, .done clip)

/-- The editor and the outcome after each of the requests. -/
def serveAll (e : Editor) : List Request → List (Editor × Outcome)
  | [] => []
  | r :: rest => e.serve r :: (e.serve r).1.serveAll rest

/-! ## One request -/

variable {e : Editor}

/-- Edits that can be carried out are carried out, with keys or without. -/
theorem apply_of_run {after : Editor} {clip : Option Text} {edits : List Edit} (ha : e.Anchored)
    (h : e.run edits = (after, .ok clip)) :
    ∃ applied, e.apply edits = (applied, .ok clip) ∧ applied.Agrees after := by
  unfold apply
  by_cases hkeys : e.keysOnly = true
  · obtain ⟨keys, pressed, hspelt, hrun, hagree⟩ := ofEdits_eq_ok Settings.default.collapse ha h
    rw [if_neg (by simp [hkeys]), hspelt]
    exact ⟨pressed, hrun, hagree⟩
  · rw [if_pos (by simp [hkeys])]
    exact ⟨after, h, .refl after⟩

/-- The edits of a command can be carried out where the command was run. -/
theorem apply_of_command {c : Command} {host : Command.Host} {edits : List Edit} (ha : e.Anchored)
    (h : c.run host e.text e.selection = .ok edits) :
    ∃ applied clip, e.apply edits = (applied, .ok clip) ∧ applied.Anchored := by
  obtain ⟨_, -, hcommand⟩ := bind_eq_ok.1 h
  obtain ⟨target, hr, hp⟩ := bind_eq_ok.1 hcommand
  obtain ⟨after, clip, hrun, -⟩ := Command.run_perform ha (Command.resolve_within ha hr) hp
  obtain ⟨applied, happly, hagree⟩ := apply_of_run ha hrun
  have hkept : (e.run edits).1.Anchored := anchored_performAll none edits ha
  rw [hrun] at hkept
  exact ⟨applied, clip, happly, hagree.symm.anchored hkept⟩

/-- A command that is refused leaves what the editor shows as it was. -/
theorem serve_refused {r : Request} {err : Command.Error} (h : (e.serve r).2 = .refused err) :
    (e.serve r).1.Agrees e := by
  unfold serve at h ⊢
  cases hc : r.command.run r.host e.text e.selection with
  | error err' =>
    simp only [hc]
    exact ⟨rfl, rfl⟩
  | ok edits =>
    simp only [hc] at h
    rcases hedits : { e with keysOnly := r.keysOnly }.apply edits with ⟨after, result⟩
    rw [hedits] at h
    cases result with
    | error err' => cases h
    | ok clip => cases h

/-- A request keeps the selection in the text, and the edits of its command succeed. -/
theorem serve_safe (ha : e.Anchored) (r : Request) :
    (e.serve r).1.Anchored ∧ ∀ err, (e.serve r).2 ≠ .failed err := by
  unfold serve
  cases hc : r.command.run r.host e.text e.selection with
  | error err =>
    simp only [hc]
    exact ⟨ha, fun err' h => by cases h⟩
  | ok edits =>
    obtain ⟨applied, clip, happly, hkept⟩ :=
      apply_of_command (e := { e with keysOnly := r.keysOnly }) ha hc
    simp only [hc, happly]
    exact ⟨hkept, fun err h => by cases h⟩

/-! ## Sessions -/

/-- **Session safety.** From an editor whose selection lies in its text, whatever is
asked and in whichever host: after every request the selection lies in the text as it
is then, and edits that a command answered with have never failed. -/
theorem serveAll_safe (e : Editor) (requests : List Request)
    (h : e.selection.stop ≤ e.text.length) :
    ∀ reply ∈ e.serveAll requests,
      reply.1.selection.start ≤ reply.1.selection.stop ∧
      reply.1.selection.stop ≤ reply.1.text.length ∧ ∀ err, reply.2 ≠ .failed err := by
  induction requests generalizing e with
  | nil =>
    intro reply hmem
    cases hmem
  | cons r rest ih =>
    intro reply hmem
    obtain ⟨hkept, hdone⟩ := serve_safe h r
    rcases List.mem_cons.1 hmem with rfl | hmem
    · exact ⟨Span.start_le_stop _, hkept, hdone⟩
    · exact ih (e.serve r).1 hkept reply hmem

/-- A word is cut with keys alone, then another is written where the cursor is left. -/
theorem serveAll_safe_cut :
    let host : Command.Host := ⟨⟨Settings.default, .none⟩, none⟩
    let e : Editor :=
      { text := ['o', 'n', 'e', ' ', 't', 'w', 'o'], selection := ⟨4, 7, by decide, by decide⟩ }
    let requests : List Request :=
      [⟨true, { kind := .cutToClipboard }, host⟩,
        ⟨false, { kind := .replace, insertText := some ['2'] }, host⟩]
    e.selection.stop ≤ e.text.length ∧
      (e.serveAll requests).map Prod.snd = [.done (some ['t', 'w', 'o']), .done none] ∧
      ∀ reply ∈ e.serveAll requests,
        reply.1.selection.start ≤ reply.1.selection.stop ∧
        reply.1.selection.stop ≤ reply.1.text.length ∧ ∀ err, reply.2 ≠ .failed err := by
  intro host e requests
  have h : e.selection.stop ≤ e.text.length := by decide
  have houtcomes : (e.serveAll requests).map Prod.snd =
      [.done (some ['t', 'w', 'o']), .done none] := by rfl
  exact ⟨h, houtcomes, serveAll_safe e requests h⟩

end Editor

end VoiceEdit
