import LiveHighlight.Proofs.FixedWidth
import LiveHighlight.Rules.RuleLayer

-- A session ends on the text it is given, by whichever path it takes the text in. Which path that
-- was is known afterwards.

namespace LiveHighlight

variable {σ : Type} [Layer σ] {s next : Session σ} {t : Text} {e : Edit}

namespace Session

def Reaches (s : Session σ) (e : Edit) (t : Text) : Prop :=
  ∃ next, s.edit e = .ok next ∧ next.text = t

theorem start_agrees (layer : σ) (t : Text) (config : Config) :
    (start layer t config).Agrees := rfl

theorem edit_agrees (agrees : s.Agrees) (fits : e.Storable) (accepted : s.edit e = .ok next) :
    next.Agrees := agrees_kept (fun _ => True) s next (.edit fits accepted) agrees

-- A refused edit and one that leads elsewhere differ only in what the layer hears.
theorem follow_ways (s : Session σ) (e : Edit) (t : Text) :
    (s.text = t ∧ s.follow e t = { s with lastIntake := .unchanged }) ∨
      (s.text ≠ t ∧ ∃ next, s.edit e = .ok next ∧ next.text = t ∧ s.follow e t = next) ∨
      (s.text ≠ t ∧ ¬ s.Reaches e t ∧ ∃ base, s.follow e t = reload base t) := by
  unfold follow Reaches
  by_cases same : s.text = t
  · exact .inl ⟨same, if_pos same⟩
  · rw [if_neg same]
    cases taken : s.edit e with
    | error refusal => exact .inr (.inr ⟨same, by simp, s, rfl⟩)
    | ok next =>
      by_cases arrived : next.text = t
      · exact .inr (.inl ⟨same, next, rfl, arrived, if_pos arrived⟩)
      · exact .inr (.inr ⟨same, by simp [arrived], next, if_neg arrived⟩)

theorem edit_accepted {document : Document} {splice : Splice}
    (taken : s.document.edit e = .ok (document, splice)) :
    ∃ next, s.edit e = .ok next ∧ next.document = document := by
  simp [edit, taken]

theorem edit_incremental (accepted : s.edit e = .ok next) : next.lastIntake = .incremental := by
  obtain ⟨splice, -, whole⟩ := edit_parts accepted
  rw [whole]

theorem follow_intake (s : Session σ) (e : Edit) (t : Text) :
    ((s.follow e t).lastIntake = .unchanged ↔ s.text = t) ∧
      ((s.follow e t).lastIntake = .incremental ↔ s.text ≠ t ∧ s.Reaches e t) ∧
      ((s.follow e t).lastIntake = .reloaded ↔ s.text ≠ t ∧ ¬ s.Reaches e t) := by
  rcases follow_ways s e t with ⟨same, whole⟩ | ⟨other, next, accepted, arrived, whole⟩ |
    ⟨other, missed, base, whole⟩
  · simp [whole, same]
  · have reached : s.Reaches e t := ⟨next, accepted, arrived⟩
    simp [whole, edit_incremental accepted, other, reached]
  · simp [whole, reload, other, missed]

theorem follow_document (agrees : s.Agrees) (fits : e.Storable) (t : Text) :
    (s.follow e t).document = .ofText t := by
  rcases follow_ways s e t with ⟨same, whole⟩ | ⟨-, next, accepted, arrived, whole⟩ |
    ⟨-, -, base, whole⟩
  · rw [whole, ← same]
    exact agrees.document
  · rw [whole, ← arrived]
    exact (edit_agrees agrees fits accepted).document
  · rw [whole]
    rfl

theorem replaces_all (agrees : s.Agrees) (held : Text.size s.text < 0x8000000000000000)
    (stored : Text.size t < 0x8000000000000000) :
    s.Reaches (.replace ⟨0, s.document.size⟩ t) t := by
  have present : signedLength s.document.size = Text.size s.text := signedLength_eq held
  have before : (Text.size t : Int) - (Text.size t - Text.size s.text) = Text.size s.text := by
    omega
  have range : (Edit.replace ⟨0, s.document.size⟩ t).replaced? =
      some ⟨Text.size [], Text.size [] + Text.size s.text⟩ := by
    simp only [Edit.replaced?, Edit.replace, Span.length, Nat.zero_add, Nat.sub_zero, present,
      signedLength_eq stored, before, Int.toNat_natCast, Text.size]
    rw [if_neg (Nat.not_lt_zero _), if_pos (by rw [offsetLimit]; omega)]
  have turns : (Edit.replace ⟨0, s.document.size⟩ t).Turns s.text t := by
    simpa [Edit.replace] using Edit.Turns.splice [] s.text [] range
  have length : Text.size t = (Edit.replace ⟨0, s.document.size⟩ t).edited.length := by
    simp [Edit.replace, Span.length]
  obtain ⟨splice, taken⟩ := Document.edit_accepts agrees (replace_storable _ stored) length turns
  obtain ⟨next, accepted, document⟩ := edit_accepted taken
  exact ⟨next, accepted, congrArg Document.text document⟩

theorem overwrite_ways (agrees : s.Agrees) (held : Text.size s.text < 0x8000000000000000)
    (stored : Text.size t < 0x8000000000000000) :
    (s.text = t ∧ s.overwrite t = { s with lastIntake := .unchanged }) ∨
      (s.text ≠ t ∧ ∃ next, s.edit (.replace ⟨0, s.document.size⟩ t) = .ok next ∧
        next.text = t ∧ s.overwrite t = next) := by
  unfold overwrite
  by_cases same : s.text = t
  · exact .inl ⟨same, if_pos same⟩
  · obtain ⟨next, accepted, arrived⟩ := replaces_all agrees held stored
    rw [if_neg same, accepted]
    exact .inr ⟨same, next, rfl, arrived, rfl⟩

theorem overwrite_document (agrees : s.Agrees) (held : Text.size s.text < 0x8000000000000000)
    (stored : Text.size t < 0x8000000000000000) : (s.overwrite t).document = .ofText t := by
  rcases overwrite_ways agrees held stored with ⟨same, whole⟩ | ⟨-, next, accepted, arrived, whole⟩
  · rw [whole, ← same]
    exact agrees.document
  · rw [whole, ← arrived]
    exact (edit_agrees agrees (replace_storable _ stored) accepted).document

theorem overwrite_intake (agrees : s.Agrees) (held : Text.size s.text < 0x8000000000000000)
    (stored : Text.size t < 0x8000000000000000) :
    (s.overwrite t).lastIntake = if s.text = t then .unchanged else .incremental := by
  rcases overwrite_ways agrees held stored with ⟨same, whole⟩ | ⟨other, next, accepted, -, whole⟩
  · rw [whole, if_pos same]
  · rw [whole, if_neg other, edit_incremental accepted]

theorem catchUp_document (agrees : s.Agrees) (t : Text) : (s.catchUp t).document = .ofText t := by
  unfold catchUp
  split
  · rename_i same
    rw [← same]
    exact agrees.document
  · rfl

theorem pass_document (agrees : s.Agrees) (t : Text) (wanted : Span) (cancelled : Cancellation) :
    (s.pass t wanted cancelled).1.document = .ofText t := by
  cases cancelled with
  | beforeRefresh => exact catchUp_document agrees t
  | afterRefresh => exact (refresh_document _).trans (catchUp_document agrees t)
  | never => exact (refresh_document _).trans (catchUp_document agrees t)

end Session

namespace Queue

theorem drain_agrees (layer : σ) (t : Text) (config : Config) {commands : List (Command σ)}
    (fits : ∀ command ∈ commands, command.Fits fun _ => True) :
    (drain (Session.start layer t config) commands).1.Agrees :=
  drain_keeps (Session.agrees_kept _) (Session.start_agrees layer t config) commands fits

theorem drain_tracks (layer : σ) (t : Text) (config : Config) (commands : List (Command σ)) :
    ∃ base, (drain (Session.start layer t config) commands).1.Tracks base := by
  rw [← run_drains _ t]
  exact ⟨_, run_tracks (Session.start_tracks layer t config) commands⟩

-- Whatever is reported with a text, the session ends on that text and its lines. It is read anew
-- exactly if the reported edit does not lead to it, and never if no edit is reported.
theorem run_converges (layer : σ) (first : Text) (config : Config) (commands : List (Command σ))
    (fits : ∀ command ∈ commands, command.Fits fun _ => True)
    (held : Text.size (drain (Session.start layer first config) commands).1.text <
      0x8000000000000000)
    (e : Edit) (storable : e.Storable) (t : Text) (stored : Text.size t < 0x8000000000000000)
    (wanted : Span) (cancelled : Cancellation) :
    let s := (drain (Session.start layer first config) commands).1
    (s.follow? e t = some (s.follow e t) ∧ (s.follow e t).document = .ofText t) ∧
      (s.overwrite? t = some (s.overwrite t) ∧ (s.overwrite t).document = .ofText t) ∧
      (s.pass? t wanted cancelled = some (s.pass t wanted cancelled) ∧
        (s.pass t wanted cancelled).1.document = .ofText t) ∧
      ((s.follow e t).lastIntake = .unchanged ↔ s.text = t) ∧
      ((s.follow e t).lastIntake = .incremental ↔ s.text ≠ t ∧ s.Reaches e t) ∧
      ((s.follow e t).lastIntake = .reloaded ↔ s.text ≠ t ∧ ¬ s.Reaches e t) ∧
      (s.overwrite t).lastIntake = if s.text = t then .unchanged else .incremental := by
  intro s
  have agrees : s.Agrees := drain_agrees layer first config fits
  obtain ⟨base, tracks⟩ := drain_tracks layer first config commands
  have bounded : s.Bounded := tracks.bounded
  have small : Text.size s.text < 0x8000000000000000 := held
  obtain ⟨unchanged, incremental, reloaded⟩ := Session.follow_intake s e t
  exact ⟨⟨Session.follow?_eq agrees bounded small storable stored,
      Session.follow_document agrees storable t⟩,
    ⟨Session.overwrite?_eq agrees bounded small stored,
      Session.overwrite_document agrees small stored⟩,
    ⟨Session.pass?_eq stored wanted cancelled, Session.pass_document agrees t wanted cancelled⟩,
    unchanged, incremental, reloaded, Session.overwrite_intake agrees small stored⟩

theorem run_converges_astray :
    let s := (drain (Session.start (⟨.empty⟩ : Rules.RuleLayer) ['a', '\r'] {})
      [.edit (.insert 7 ['b'])]).1
    s.text = ['a', '\r'] ∧
      (s.follow (.insert 2 ['\n']) ['c', 'a', '\r', '\n']).document.lines = ⟨[0, 4]⟩ ∧
      (s.follow (.insert 2 ['\n']) ['c', 'a', '\r', '\n']).lastIntake = .reloaded := by
  intro s
  have fits : ∀ command ∈ [Command.edit (.insert 7 ['b'])],
      command.Fits fun _ : Rules.RuleLayer => True := by
    intro command present
    cases List.mem_singleton.mp present
    exact (by decide : 1 < 0x8000000000000000)
  have present : s.text = ['a', '\r'] := by decide +kernel
  have other : s.text ≠ ['c', 'a', '\r', '\n'] := by simp [present]
  have missed : ¬ s.Reaches (.insert 2 ['\n']) ['c', 'a', '\r', '\n'] := by
    rintro ⟨next, accepted, arrived⟩
    obtain ⟨splice, taken, -⟩ := Session.edit_parts accepted
    have led : (s.document.edit (.insert 2 ['\n'])).map (·.1.text) = .ok ['a', '\r', '\n'] := by
      decide +kernel
    rw [taken] at led
    have same : next.text = ['a', '\r', '\n'] := Except.ok.inj led
    simp [same] at arrived
  obtain ⟨⟨-, document⟩, -, -, -, -, reloaded, -⟩ := run_converges ⟨.empty⟩ ['a', '\r'] {} _ fits
    (by decide +kernel) (.insert 2 ['\n']) (by decide : 1 < 0x8000000000000000)
    ['c', 'a', '\r', '\n'] (by decide) ⟨0, 0⟩ .never
  refine ⟨present, ?_, reloaded.mpr ⟨other, missed⟩⟩
  exact congrArg Document.lines document

end Queue

end LiveHighlight
