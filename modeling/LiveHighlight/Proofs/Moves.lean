import LiveHighlight.Proofs.EditedLines
import LiveHighlight.Queue

-- The few moves that commands are made of. What each of them keeps is kept by every run, such as
-- the agreement of lines and text.

namespace LiveHighlight

variable {σ : Type} {s next : Session σ} {t : Text} {e : Edit}

namespace Session

def Agrees (s : Session σ) : Prop := s.document.InAgreement

theorem Agrees.document (agrees : s.Agrees) : s.document = .ofText s.text := by
  obtain ⟨layer, ⟨text, lines⟩, affected, config, lastIntake⟩ := s
  exact congrArg (Document.mk text) agrees

variable [Layer σ]

inductive Moves (fresh : σ → Prop) : Session σ → Session σ → Prop where
  | edit {s next : Session σ} {e : Edit} (fits : e.Storable) (accepted : s.edit e = .ok next) :
      Moves fresh s next
  | reload (s : Session σ) (t : Text) : Moves fresh s (s.reload t)
  | exchange (s : Session σ) {layer : σ} (allowed : fresh layer) :
      Moves fresh s (s.exchange layer).1
  | refresh (s : Session σ) : Moves fresh s s.refresh.1
  | finish (s : Session σ) : Moves fresh s { s.refresh.1 with affected := .none }
  | unchanged (s : Session σ) : Moves fresh s { s with lastIntake := .unchanged }

def Kept (fresh : σ → Prop) (P : Session σ → Prop) : Prop :=
  ∀ s next, Moves fresh s next → P s → P next

variable {fresh : σ → Prop} {P : Session σ → Prop}

theorem follow_keeps (kept : Kept fresh P) (held : P s) (fits : e.Storable) (t : Text) :
    P (s.follow e t) := by
  unfold follow
  split
  · exact kept _ _ (.unchanged s) held
  · split
    · rename_i next accepted
      have edited : P next := kept _ _ (.edit fits accepted) held
      split
      · exact edited
      · exact kept _ _ (.reload next t) edited
    · exact kept _ _ (.reload s t) held

theorem replace_storable (r : Span) (fits : Text.size t < 0x8000000000000000) :
    (Edit.replace r t).Storable := fits

theorem overwrite_keeps (kept : Kept fresh P) (held : P s)
    (fits : Text.size t < 0x8000000000000000) :
    P (s.overwrite t) := by
  unfold overwrite
  split
  · exact kept _ _ (.unchanged s) held
  · split
    · rename_i next accepted
      exact kept _ _ (.edit (replace_storable _ fits) accepted) held
    · exact kept _ _ (.reload s t) held

theorem catchUp_keeps (kept : Kept fresh P) (held : P s) (t : Text) : P (s.catchUp t) := by
  unfold catchUp
  split
  · exact held
  · exact kept _ _ (.reload s t) held

theorem pass_keeps (kept : Kept fresh P) (held : P s) (t : Text) (wanted : Span)
    (cancelled : Cancellation) : P (s.pass t wanted cancelled).1 := by
  have current : P (s.catchUp t) := catchUp_keeps kept held t
  cases cancelled with
  | never => exact kept _ _ (.finish _) current
  | beforeRefresh => exact current
  | afterRefresh => exact kept _ _ (.refresh _) current

end Session

def Command.Fits (fresh : σ → Prop) : Command σ → Prop
  | .follow e _ => e.Storable
  | .edit e => e.Storable
  | .overwrite t => Text.size t < 0x8000000000000000
  | .exchange layer => fresh layer
  | .pass .. => True
  | .snapshot => True

variable [Layer σ]

namespace Queue

variable {fresh : σ → Prop} {P : Session σ → Prop}

theorem step_keeps (kept : Session.Kept fresh P) (held : P s) (command : Command σ)
    (fits : command.Fits fresh) : P (step s command).1 := by
  cases command with
  | follow e t => exact Session.follow_keeps kept held fits t
  | edit e =>
    simp only [step]
    split
    · rename_i next accepted
      exact kept _ _ (.edit fits accepted) held
    · exact held
  | overwrite t => exact Session.overwrite_keeps kept held fits
  | exchange layer => exact kept _ _ (.exchange s fits) held
  | pass t wanted cancelled => exact Session.pass_keeps kept held t wanted cancelled
  | snapshot => exact held

theorem drain_keeps (kept : Session.Kept fresh P) (held : P s) (commands : List (Command σ))
    (fits : ∀ command ∈ commands, command.Fits fresh) : P (drain s commands).1 := by
  induction commands generalizing s with
  | nil => exact held
  | cons command rest ih =>
    have stepped : P (step s command).1 := step_keeps kept held command (fits command (by simp))
    exact ih stepped fun later member => fits later (by simp [member])

theorem drain_last (s : Session σ) (commands : List (Command σ)) (command : Command σ) :
    (drain s (commands ++ [command])).1 = (step (drain s commands).1 command).1 := by
  induction commands generalizing s with
  | nil => rfl
  | cons first rest ih => exact ih _

end Queue

namespace Session

theorem edit_parts (accepted : s.edit e = .ok next) :
    ∃ splice, s.document.edit e = .ok (next.document, splice) ∧
      next = { s with
        layer := Layer.edit s.layer splice
        document := next.document
        affected := s.affected.add e.edited e.delta
        lastIntake := .incremental } := by
  unfold edit at accepted
  split at accepted
  · cases accepted
  · rename_i document splice taken
    cases Except.ok.inj accepted
    exact ⟨splice, taken, rfl⟩

theorem refresh_document (s : Session σ) : s.refresh.1.document = s.document := by
  unfold refresh
  split <;> rfl

theorem refresh_config (s : Session σ) : s.refresh.1.config = s.config := by
  unfold refresh
  split <;> rfl

theorem refresh_text (s : Session σ) : s.refresh.1.text = s.text :=
  congrArg Document.text (refresh_document s)

theorem catchUp_text (s : Session σ) (t : Text) : (s.catchUp t).text = t := by
  unfold catchUp
  split
  · assumption
  · rfl

theorem catchUp_current (current : s.text = t) : s.catchUp t = s := if_pos current

theorem catchUp_twice (s : Session σ) (t : Text) : (s.catchUp t).catchUp t = s.catchUp t :=
  catchUp_current (catchUp_text s t)

theorem config_kept (fresh : σ → Prop) (config : Config) :
    Kept fresh fun s => s.config = config := by
  intro s next moves same
  cases moves with
  | edit fits accepted =>
    obtain ⟨splice, -, whole⟩ := edit_parts accepted
    rw [whole]
    exact same
  | reload => exact same
  | exchange => exact same
  | refresh => exact (refresh_config s).trans same
  | finish => exact (refresh_config s).trans same
  | unchanged => exact same

theorem agrees_kept (fresh : σ → Prop) : Kept fresh (Agrees (σ := σ)) := by
  intro s next moves agrees
  cases moves with
  | edit fits accepted =>
    obtain ⟨splice, taken, -⟩ := edit_parts accepted
    exact Document.takes_agrees agrees fits (Document.edit_exact.mp taken)
  | reload => exact rfl
  | exchange => exact agrees
  | refresh =>
    unfold Agrees at agrees ⊢
    rwa [refresh_document]
  | finish =>
    unfold Agrees at agrees ⊢
    dsimp only
    rwa [refresh_document]
  | unchanged => exact agrees

end Session

end LiveHighlight
