import LiveHighlight.Layer.Recorded
import LiveHighlight.Proofs.Moves
import LiveHighlight.Proofs.Tracking

-- What a layer is told. A copy of the text that is kept by the calls to the layer alone is the
-- session's own text at all times, so a layer that reads incrementally never falls out of step.

namespace LiveHighlight

-- A call, next to the text of the session right after it.
structure Notice where
  call : LayerCall
  mirror : Text
  deriving DecidableEq

namespace Notice

def loaded (t : Text) : Notice := ⟨.load t, t⟩

-- Of an edit the copy takes the bytes from the text of the session; both spans have to fit.
def takeIn (copy : Option Text) (n : Notice) : Option Text :=
  match n.call with
  | .load t => some t
  | .edit d => do
    let copied ← copy
    let (left, _, right) ← Text.split? copied ⟨d.start, d.oldStop⟩
    let (_, new, _) ← Text.split? n.mirror ⟨d.start, d.newStop⟩
    some (left ++ (new ++ right))
  | .refresh .. => copy

def copy? (notices : List Notice) : Option Text := notices.foldl takeIn none

def Fits (copy : Option Text) (n : Notice) : Prop :=
  match n.call with
  | .load t => t = n.mirror
  | .edit d => ∃ copied, copy = some copied ∧
      (d.start ≤ d.oldStop ∧ d.oldStop ≤ Text.size copied) ∧
      d.start ≤ d.newStop ∧ d.newStop ≤ Text.size n.mirror
  | .refresh t _ _ _ => copy = some t ∧ t = n.mirror

-- All that a layer was told from the moment it was put in, up to the present text.
structure Story (notices : List Notice) (t : Text) : Prop where
  opening : ∃ first rest, notices = loaded first :: rest
  fits : ∀ earlier n later, notices = earlier ++ n :: later → n.Fits (copy? earlier)
  copy : copy? notices = some t

variable {notices : List Notice} {n : Notice} {t u : Text}

theorem copy?_append (notices : List Notice) (n : Notice) :
    copy? (notices ++ [n]) = n.takeIn (copy? notices) := by
  simp [copy?]

theorem Story.begin (t : Text) : Story [loaded t] t where
  opening := ⟨t, [], rfl⟩
  fits := by
    intro earlier n later parts
    cases earlier with
    | nil =>
      obtain ⟨rfl, -⟩ := List.cons.inj parts
      exact rfl
    | cons first rest => simp at parts
  copy := rfl

theorem Story.more (story : Story notices t) (fits : n.Fits (some t))
    (taken : n.takeIn (some t) = some u) : Story (notices ++ [n]) u where
  opening := by
    obtain ⟨first, rest, rfl⟩ := story.opening
    exact ⟨first, rest ++ [n], rfl⟩
  fits := by
    intro earlier last later parts
    rcases List.eq_nil_or_concat later with rfl | ⟨between, final, rfl⟩
    · obtain ⟨rfl, same⟩ := List.append_inj' parts rfl
      cases same
      rw [story.copy]
      exact fits
    · rw [List.concat_eq_append, ← List.cons_append, ← List.append_assoc] at parts
      obtain ⟨before, -⟩ := List.append_inj' parts rfl
      exact story.fits earlier last between before
  copy := by rw [copy?_append, story.copy, taken]

theorem Story.load (story : Story notices t) (u : Text) : Story (notices ++ [loaded u]) u :=
  story.more rfl rfl

end Notice

namespace Session

open Notice

variable {σ : Type} [Layer σ] {s next : Session σ} {e : Edit} {t : Text} {notices : List Notice}

-- The calls of each operation, in their order.

def editNotices (s : Session σ) (e : Edit) : List Notice :=
  match s.document.edit e with
  | .error _ => []
  | .ok (document, splice) => [⟨.edit splice, document.text⟩]

def catchUpNotices (s : Session σ) (t : Text) : List Notice :=
  if s.text = t then [] else [loaded t]

def followNotices (s : Session σ) (e : Edit) (t : Text) : List Notice :=
  if s.text = t then []
  else
    match s.edit e with
    | .ok next => s.editNotices e ++ next.catchUpNotices t
    | .error _ => [loaded t]

def overwriteNotices (s : Session σ) (t : Text) : List Notice :=
  if s.text = t then []
  else
    match s.edit (.replace ⟨0, s.document.size⟩ t) with
    | .ok _ => s.editNotices (.replace ⟨0, s.document.size⟩ t)
    | .error _ => [loaded t]

def refreshNotices (s : Session σ) : List Notice :=
  if s.affected.isEmpty then []
  else [⟨.refresh s.text s.affected.spans s.config.resolveEmbedded s.refresh.2, s.text⟩]

def passNotices (s : Session σ) (t : Text) (cancelled : Cancellation) : List Notice :=
  let caughtUp := s.catchUpNotices t
  match cancelled with
  | .beforeRefresh => caughtUp
  | .afterRefresh => caughtUp ++ (s.catchUp t).refreshNotices
  | .never => caughtUp ++ (s.catchUp t).refreshNotices

theorem edit_story (story : Story notices s.text) (accepted : s.edit e = .ok next) :
    Story (notices ++ s.editNotices e) next.text := by
  obtain ⟨splice, left, old, right, spliced⟩ := edit_spliced accepted
  have said : s.editNotices e = [⟨.edit splice, next.text⟩] := by
    simp only [editNotices, spliced.taken, text]
  have place := spliced.replacement
  simp only [Splice.replacement, Replacement.mk.injEq, Span.mk.injEq] at place
  obtain ⟨⟨start, oldStop⟩, -, newStop⟩ := place
  have before : Text.split? s.text ⟨splice.start, splice.oldStop⟩ = some (left, old, right) :=
    Text.split?_exact.mpr ⟨spliced.before, start.symm, oldStop.symm⟩
  have after : Text.split? next.text ⟨splice.start, splice.newStop⟩ =
      some (left, e.inserted, right) :=
    Text.split?_exact.mpr ⟨spliced.after, start.symm, newStop.symm⟩
  rw [said]
  refine story.more ⟨s.text, rfl, ⟨by omega, ?_⟩, by omega, ?_⟩ ?_
  · rw [spliced.before, Text.size_append, Text.size_append]
    omega
  · dsimp only
    rw [spliced.after, Text.size_append, Text.size_append]
    omega
  · simp [takeIn, before, after, ← spliced.after]

theorem catchUp_story (story : Story notices s.text) (t : Text) :
    Story (notices ++ s.catchUpNotices t) (s.catchUp t).text := by
  unfold catchUpNotices catchUp
  split
  · rwa [List.append_nil]
  · exact story.load t

theorem follow_catchUp (accepted : s.edit e = .ok next) (other : s.text ≠ t) :
    s.follow e t = next.catchUp t := by
  rw [follow, if_neg other, accepted]
  rfl

theorem follow_story (story : Story notices s.text) (e : Edit) (t : Text) :
    Story (notices ++ s.followNotices e t) (s.follow e t).text := by
  by_cases same : s.text = t
  · rw [followNotices, follow, if_pos same, if_pos same, List.append_nil]
    exact story
  · cases taken : s.edit e with
    | error refusal =>
      rw [followNotices, follow, if_neg same, if_neg same, taken]
      exact story.load t
    | ok next =>
      rw [follow_catchUp taken same, followNotices, if_neg same, taken, ← List.append_assoc]
      exact catchUp_story (edit_story story taken) t

theorem overwrite_story (story : Story notices s.text) (t : Text) :
    Story (notices ++ s.overwriteNotices t) (s.overwrite t).text := by
  by_cases same : s.text = t
  · rw [overwriteNotices, overwrite, if_pos same, if_pos same, List.append_nil]
    exact story
  · rw [overwriteNotices, overwrite, if_neg same, if_neg same]
    cases taken : s.edit (.replace ⟨0, s.document.size⟩ t) with
    | error refusal => exact story.load t
    | ok next => exact edit_story story taken

theorem refresh_story (story : Story notices s.text) :
    Story (notices ++ s.refreshNotices) s.refresh.1.text := by
  rw [refresh_text]
  unfold refreshNotices
  split
  · rwa [List.append_nil]
  · exact story.more ⟨rfl, rfl⟩ rfl

theorem pass_story (story : Story notices s.text) (t : Text) (wanted : Span)
    (cancelled : Cancellation) :
    Story (notices ++ s.passNotices t cancelled) (s.pass t wanted cancelled).1.text := by
  have current := catchUp_story story t
  cases cancelled with
  | beforeRefresh => exact current
  | afterRefresh =>
    have refreshed := refresh_story current
    rwa [List.append_assoc] at refreshed
  | never =>
    have refreshed := refresh_story current
    rwa [List.append_assoc] at refreshed

theorem pass_asks (s : Session σ) (t : Text) (wanted : Span) :
    ∃ next result, s.pass t wanted .never = (next, some result) ∧
      next.text = t ∧ result.highlights = Highlight.ofCaptures
        (Layer.captures next.layer result.updated t) (Layer.category? next.layer) := by
  have read : (s.catchUp t).refresh.1.text = t := (refresh_text _).trans (catchUp_text s t)
  refine ⟨_, _, rfl, read, ?_⟩
  exact congrArg (fun u => Highlight.ofCaptures (Layer.captures _ _ u) _) read

def recording (s : Session σ) (notices : List Notice) : Session (Recorded σ) where
  layer := ⟨s.layer, notices.map (·.call)⟩
  document := s.document
  affected := s.affected
  config := s.config
  lastIntake := s.lastIntake

theorem edit_recording (accepted : s.edit e = .ok next) (notices : List Notice) :
    (s.recording notices).edit e = .ok (next.recording (notices ++ s.editNotices e)) := by
  unfold edit at accepted
  split at accepted
  · cases accepted
  · rename_i document splice taken
    cases Except.ok.inj accepted
    have own : (s.recording notices).document.edit e = .ok (document, splice) := taken
    rw [edit, own, editNotices, taken]
    simp only [recording, List.map_append]
    rfl

theorem edit_refused {refusal : Refusal} (refused : s.edit e = .error refusal) :
    s.document.edit e = .error refusal := by
  unfold edit at refused
  split at refused
  · rename_i other taken
    cases Except.error.inj refused
    exact taken
  · cases refused

theorem editNotices_refused {refusal : Refusal} (refused : s.edit e = .error refusal) :
    s.editNotices e = [] := by
  rw [editNotices, edit_refused refused]

theorem edit_recording_refused {refusal : Refusal} (refused : s.edit e = .error refusal)
    (notices : List Notice) : (s.recording notices).edit e = .error refusal := by
  have taken := edit_refused refused
  have own : (s.recording notices).document.edit e = .error refusal := taken
  rw [edit, own]

theorem reload_recording (s : Session σ) (t : Text) (notices : List Notice) :
    (s.recording notices).reload t = (s.reload t).recording (notices ++ [loaded t]) := by
  simp only [reload, recording, List.map_append]
  rfl

theorem catchUp_recording (s : Session σ) (t : Text) (notices : List Notice) :
    (s.recording notices).catchUp t = (s.catchUp t).recording (notices ++ s.catchUpNotices t) := by
  have own : (s.recording notices).text = s.text := rfl
  unfold catchUp catchUpNotices
  rw [own]
  split
  · rw [List.append_nil]
  · exact reload_recording s t notices

theorem follow_recording (s : Session σ) (e : Edit) (t : Text) (notices : List Notice) :
    (s.recording notices).follow e t =
      (s.follow e t).recording (notices ++ s.followNotices e t) := by
  have own : (s.recording notices).text = s.text := rfl
  by_cases same : s.text = t
  · rw [follow, follow, followNotices, own, if_pos same, if_pos same, if_pos same, List.append_nil]
    rfl
  · cases taken : s.edit e with
    | error refusal =>
      rw [follow, follow, followNotices, own, if_neg same, if_neg same, if_neg same,
        edit_recording_refused taken, taken]
      exact reload_recording s t notices
    | ok next =>
      rw [follow_catchUp (edit_recording taken notices) same, follow_catchUp taken same,
        followNotices, if_neg same, taken, ← List.append_assoc]
      exact catchUp_recording next t _

theorem overwrite_recording (s : Session σ) (t : Text) (notices : List Notice) :
    (s.recording notices).overwrite t =
      (s.overwrite t).recording (notices ++ s.overwriteNotices t) := by
  have own : (s.recording notices).text = s.text := rfl
  have size : (s.recording notices).document.size = s.document.size := rfl
  unfold overwrite overwriteNotices
  rw [own, size]
  by_cases same : s.text = t
  · rw [if_pos same, if_pos same, if_pos same, List.append_nil]
    rfl
  · rw [if_neg same, if_neg same, if_neg same]
    cases taken : s.edit (.replace ⟨0, s.document.size⟩ t) with
    | error refusal =>
      rw [edit_recording_refused taken]
      exact reload_recording s t notices
    | ok next => rw [edit_recording taken]

theorem exchange_recording (s : Session σ) (layer : σ) (notices : List Notice) :
    ((s.recording notices).exchange (.fresh layer)).1 =
      (s.exchange layer).1.recording [loaded s.text] := rfl

theorem refresh_recording (s : Session σ) (notices : List Notice) :
    (s.recording notices).refresh =
      (s.refresh.1.recording (notices ++ s.refreshNotices), s.refresh.2) := by
  have own : (s.recording notices).affected = s.affected := rfl
  unfold refreshNotices
  by_cases nothing : s.affected.isEmpty
  · rw [refresh, refresh, own, if_pos nothing, if_pos nothing, if_pos nothing, List.append_nil]
  · rw [if_neg nothing, refresh, refresh, own, if_neg nothing, if_neg nothing]
    simp only [recording, List.map_append]
    rfl

theorem pass_recording (s : Session σ) (t : Text) (wanted : Span) (cancelled : Cancellation)
    (notices : List Notice) :
    (s.recording notices).pass t wanted cancelled =
      ((s.pass t wanted cancelled).1.recording (notices ++ s.passNotices t cancelled),
        (s.pass t wanted cancelled).2) := by
  have current := catchUp_recording s t notices
  have refreshed := refresh_recording (s.catchUp t) (notices ++ s.catchUpNotices t)
  rw [List.append_assoc] at refreshed
  cases cancelled with
  | beforeRefresh => simp only [pass, passNotices, current]
  | afterRefresh => simp only [pass, passNotices, current, refreshed]
  | never =>
    simp only [pass, passNotices, current, refreshed]
    rfl

end Session

def Command.recorded {σ : Type} : Command σ → Command (Recorded σ)
  | .follow e t => .follow e t
  | .edit e => .edit e
  | .overwrite t => .overwrite t
  | .exchange layer => .exchange (.fresh layer)
  | .pass t wanted cancelled => .pass t wanted cancelled
  | .snapshot => .snapshot

namespace Queue

open Notice

variable {σ : Type} [Layer σ] {s : Session σ} {notices : List Notice}

def told (s : Session σ) (heard : List Notice) : Command σ → List Notice
  | .follow e t => heard ++ s.followNotices e t
  | .edit e => heard ++ s.editNotices e
  | .overwrite t => heard ++ s.overwriteNotices t
  | .exchange _ => [loaded s.text]
  | .pass t _ cancelled => heard ++ s.passNotices t cancelled
  | .snapshot => heard

def tell (s : Session σ) (heard : List Notice) : List (Command σ) → List Notice
  | [] => heard
  | command :: rest => tell (step s command).1 (told s heard command) rest

theorem tell_last (s : Session σ) (heard : List Notice) (commands : List (Command σ))
    (command : Command σ) :
    tell s heard (commands ++ [command]) =
      told (drain s commands).1 (tell s heard commands) command := by
  induction commands generalizing s heard with
  | nil => rfl
  | cons first rest ih => exact ih _ _

theorem step_story (story : Story notices s.text) (command : Command σ) :
    Story (told s notices command) (step s command).1.text := by
  cases command with
  | follow e t => exact Session.follow_story story e t
  | edit e =>
    simp only [told, step]
    cases taken : s.edit e with
    | error refusal =>
      rw [Session.editNotices_refused taken, List.append_nil]
      exact story
    | ok next => exact Session.edit_story story taken
  | overwrite t => exact Session.overwrite_story story t
  | exchange layer => exact .begin s.text
  | pass t wanted cancelled => exact Session.pass_story story t wanted cancelled
  | snapshot => exact story

theorem step_recording (s : Session σ) (notices : List Notice) (command : Command σ) :
    (step (s.recording notices) command.recorded).1 =
      (step s command).1.recording (told s notices command) := by
  cases command with
  | follow e t => exact Session.follow_recording s e t notices
  | edit e =>
    simp only [told, step, Command.recorded]
    cases taken : s.edit e with
    | error refusal =>
      rw [Session.edit_recording_refused taken, Session.editNotices_refused taken,
        List.append_nil]
    | ok next => rw [Session.edit_recording taken]
  | overwrite t => exact Session.overwrite_recording s t notices
  | exchange layer => exact Session.exchange_recording s layer notices
  | pass t wanted cancelled =>
    simp only [told, step, Command.recorded, Session.pass_recording]
  | snapshot => rfl

theorem tell_story (story : Story notices s.text) (commands : List (Command σ)) :
    Story (tell s notices commands) (drain s commands).1.text := by
  induction commands generalizing s notices with
  | nil => exact story
  | cons command rest ih => exact ih (step_story story command)

theorem tell_recording (s : Session σ) (notices : List Notice) (commands : List (Command σ)) :
    (drain (s.recording notices) (commands.map .recorded)).1 =
      (drain s commands).1.recording (tell s notices commands) := by
  induction commands generalizing s notices with
  | nil => rfl
  | cons command rest ih =>
    have stepped := step_recording s notices command
    simp only [List.map_cons, drain, tell, stepped]
    exact ih _ _

-- Over any run, the calls that a layer records from the moment it is put in begin with a load and
-- lead a copy along that is the session's text in the end; each span told of fits that copy.
theorem run_tells (layer : σ) (t : Text) (config : Config) (commands : List (Command σ)) :
    let final := (drain (Session.start layer t config) commands).1
    let notices := tell (Session.start layer t config) [loaded t] commands
    (drain (Session.start (Recorded.fresh layer) t config) (commands.map .recorded)).1 =
        final.recording notices ∧
      Story notices final.text ∧
      ∀ asked wanted, ∃ next result, final.pass asked wanted .never = (next, some result) ∧
        next.text = asked ∧ result.highlights = Highlight.ofCaptures
          (Layer.captures next.layer result.updated asked) (Layer.category? next.layer) := by
  intro final notices
  refine ⟨tell_recording (Session.start layer t config) [loaded t] commands,
    tell_story (.begin t) commands, ?_⟩
  exact Session.pass_asks final

end Queue

end LiveHighlight
