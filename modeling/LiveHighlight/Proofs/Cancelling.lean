import LiveHighlight.Proofs.Convergence
import LiveHighlight.Proofs.Rereading
import LiveHighlight.Proofs.Retaking

-- Passes that are cancelled, and the pass that finishes after them. It still renders all that was
-- edited; what the layer reported to a cancelled pass beyond that is lost.

namespace LiveHighlight

open SpanSet (Canonical)

namespace Session

variable {σ : Type} [Layer σ] {s : Session σ} {t : Text} {wanted : Span}

theorem refresh_idle (nothing : s.affected.isEmpty = true) : s.refresh = (s, .empty) :=
  if_pos nothing

theorem refresh_affected (s : Session σ) : s.refresh.1.affected = s.affected := by
  unfold refresh
  split <;> rfl

def Rests (s : Session σ) : Prop := s.refresh.1.refresh.1 = s.refresh.1

theorem drain_cancelled (rests : (s.catchUp t).Rests) {cancellations : List Cancellation}
    (cancelled : .never ∉ cancellations) :
    (Queue.drain s (cancellations.map fun c => .pass t wanted c)).1.catchUp t =
      if .afterRefresh ∈ cancellations then (s.catchUp t).refresh.1 else s.catchUp t := by
  induction cancellations generalizing s with
  | nil => rfl
  | cons c rest ih =>
    have others : .never ∉ rest := fun member => cancelled (List.mem_cons_of_mem c member)
    cases c with
    | never => simp at cancelled
    | beforeRefresh =>
      have current := catchUp_twice s t
      have later := ih (s := s.catchUp t) (current.symm ▸ rests) others
      rw [current] at later
      refine Eq.trans later ?_
      simp
    | afterRefresh =>
      -- From here on the layer rests, so neither kind of pass changes the session again.
      have current : (s.catchUp t).refresh.1.catchUp t = (s.catchUp t).refresh.1 :=
        catchUp_current ((refresh_text _).trans (catchUp_text s t))
      have settled : (s.catchUp t).refresh.1.Rests := by
        unfold Rests at rests ⊢
        rw [rests, rests]
      have later := ih (s := (s.catchUp t).refresh.1) (current.symm ▸ settled) others
      rw [current, rests] at later
      refine Eq.trans later ?_
      simp

end Session

namespace Nesting

variable {S L T : Type} [Compiling S L] [Parsing L T] {valid : Text → Prop}
  {s : Session (TreeLayer S L T)} {t : Text} {wanted : Span}

-- A session about to refresh. Its text is valid if there is anything to read.
structure Ready (valid : Text → Prop) (s : Session (TreeLayer S L T)) : Prop where
  named : s.layer.catalogue.Named
  inStep : s.layer.InStep valid s.text
  held : s.affected.isEmpty = false → valid s.text
  canonical : Canonical s.affected.spans.spans
  bounded : s.Bounded

theorem refresh_asks (something : s.affected.isEmpty = false) :
    s.refresh.1 = { s with
        layer := (s.layer.refresh s.text s.affected.spans s.config.resolveEmbedded).1 } ∧
      s.refresh.2 = (s.layer.refresh s.text s.affected.spans s.config.resolveEmbedded).2 := by
  rw [Session.refresh, something]
  exact ⟨rfl, rfl⟩

theorem ready_rests (faithful : Faithful L valid) (ready : Ready valid s) : s.Rests := by
  unfold Session.Rests
  cases something : s.affected.isEmpty with
  | true => rw [Session.refresh_idle something, Session.refresh_idle something]
  | false =>
    have again := TreeLayer.refresh_again faithful ready.named (ready.held something) ready.inStep
      s.affected.spans s.affected.spans s.config.resolveEmbedded
    let next : Session (TreeLayer S L T) := { s with
      layer := (s.layer.refresh s.text s.affected.spans s.config.resolveEmbedded).1 }
    have first : s.refresh.1 = next := (refresh_asks something).1
    rw [first, (refresh_asks (s := next) something).1]
    exact congrArg (fun l => { s with layer := l }) again

theorem refresh_reports (something : s.affected.isEmpty = false) :
    s.affected.spans.Grows s.refresh.2 := by
  rw [(refresh_asks something).2]
  exact TreeLayer.refresh_grows _ _ _ _

-- The report that the finishing pass gets: the first one, or a second one.
def report (s : Session (TreeLayer S L T)) (again : Bool) : SpanSet :=
  if again then s.refresh.1.refresh.2 else s.refresh.2

theorem report_idle (nothing : s.affected.isEmpty = true) (again : Bool) :
    report s again = .empty := by
  cases again <;> simp [report, Session.refresh_idle nothing]

theorem report_grows (something : s.affected.isEmpty = false) (again : Bool) :
    s.affected.spans.Grows (report s again) := by
  cases again with
  | false => exact refresh_reports something
  | true =>
    have kept := Session.refresh_affected s
    have later := refresh_reports (s := s.refresh.1) (by rw [kept]; exact something)
    rwa [kept] at later

-- Once the layer has read the text, a second report adds nothing to what is tracked.
theorem report_quiet (quiet : Quiet L) (faithful : Faithful L valid) (ready : Ready valid s)
    (something : s.affected.isEmpty = false) (plain : s.refresh.1.layer.Plain s.text) :
    report s true = s.affected.spans := by
  have held := ready.held something
  obtain ⟨asked, -⟩ := refresh_asks something
  have kept := Session.refresh_affected s
  -- The second refresh starts from a layer that has read the text, with the same spans tracked.
  have later := (refresh_asks (s := s.refresh.1) (by rw [kept]; exact something)).2
  rw [report, if_pos rfl, later, kept]
  rw [asked] at plain ⊢
  have after := TreeLayer.refresh_inStep faithful ready.named held ready.inStep s.affected.spans
    s.config.resolveEmbedded
  refine TreeLayer.refresh_quiet quiet faithful held after plain ?_ s.affected.spans ?_
  · have tree := TreeLayer.refresh_tree faithful held ready.inStep s.affected.spans
      s.config.resolveEmbedded
    have language := (TreeLayer.refresh_from s.layer s.text s.affected.spans
      s.config.resolveEmbedded).language
    exact tree.trans (by rw [language])
  · intro embedded
    change s.config.resolveEmbedded = true at embedded
    rw [embedded, TreeLayer.refresh_reads faithful held ready.inStep]
    exact load_again s.layer s.text

theorem catchUp_tracks_all (other : s.text ≠ t) :
    (⟨0, Text.size t⟩ : Span) ∈ (s.catchUp t).affected.spans.spans := by
  rw [show s.catchUp t = s.reload t from if_neg other]
  simp [Session.reload, Affected.only, SpanSet.ofSpan, SpanSet.insert, SpanSet.place, SpanSet.empty]

theorem pass_after (faithful : Faithful L valid) (ready : Ready valid (s.catchUp t))
    (cancellations : List Cancellation) (cancelled : .never ∉ cancellations) (wanted : Span) :
    let next := (s.catchUp t).finished
    (Queue.drain s (cancellations.map fun c => .pass t wanted c)).1.pass t wanted .never =
      (next, some (next.rendered (next.updatedSpan
        (report (s.catchUp t) (decide (.afterRefresh ∈ cancellations))) wanted))) := by
  have rests := ready_rests faithful ready
  rw [Session.pass_never, Session.drain_cancelled rests cancelled]
  by_cases after : .afterRefresh ∈ cancellations
  · have same : (s.catchUp t).refresh.1.finished = (s.catchUp t).finished :=
      congrArg (fun u => { u with affected := Affected.none }) rests
    rw [if_pos after, same, decide_eq_true after]
    rfl
  · rw [if_neg after, decide_eq_false after]
    rfl

theorem updated_covers (ready : Ready valid s) (again : Bool) (wanted : Span) {r : Span}
    (member : r ∈ wanted.clamp s.document.size :: s.affected.spans.spans) :
    (s.updatedSpan (report s again) wanted).start ≤ r.start ∧
      r.stop ≤ (s.updatedSpan (report s again) wanted).stop := by
  rcases List.mem_cons.mp member with rfl | tracked
  · exact Session.updatedSpan_wanted _ _ _
  · cases something : s.affected.isEmpty with
    | true =>
      rw [List.isEmpty_iff.mp something] at tracked
      cases tracked
    | false =>
      exact Session.updatedSpan_holds (report_grows something again) ready.canonical tracked
        (ready.bounded r tracked).2 wanted

-- What is rendered does not depend on earlier passes if none of them got as far as the layer, if
-- nothing is tracked, or if all of the text is wanted or tracked.
theorem updated_same (ready : Ready valid s) {again : Bool} {wanted : Span}
    (why : again = false ∨ s.affected.isEmpty = true ∨
      (⟨0, s.document.size⟩ : Span) ∈ wanted.clamp s.document.size :: s.affected.spans.spans) :
    s.updatedSpan (report s again) wanted = s.updatedSpan (report s false) wanted := by
  rcases why with rfl | nothing | member
  · rfl
  · rw [report_idle nothing, report_idle nothing]
  · have whole : ∀ again, s.updatedSpan (report s again) wanted = ⟨0, s.document.size⟩ := by
      intro again
      obtain ⟨start, stop⟩ := updated_covers ready again wanted member
      exact Session.updatedSpan_all start stop
    rw [whole, whole]

theorem updated_tracked (quiet : Quiet L) (faithful : Faithful L valid) (ready : Ready valid s)
    (plain : s.refresh.1.layer.Plain s.text) (wanted : Span) :
    s.updatedSpan (report s true) wanted = s.updatedSpan s.affected.spans wanted ∧
      (s.updatedSpan (report s false) wanted).start ≤
        (s.updatedSpan (report s true) wanted).start ∧
      (s.updatedSpan (report s true) wanted).stop ≤
        (s.updatedSpan (report s false) wanted).stop := by
  have tracked : report s true = s.affected.spans := by
    cases something : s.affected.isEmpty with
    | true =>
      rw [report_idle something]
      exact congrArg SpanSet.mk (List.isEmpty_iff.mp something).symm
    | false => exact report_quiet quiet faithful ready something plain
  rw [tracked]
  refine ⟨rfl, Session.updatedSpan_least ?_ ?_⟩
  · exact updated_covers ready false wanted (List.mem_cons_self ..)
  · exact fun m member => updated_covers ready false wanted (List.mem_cons_of_mem _ member)

theorem run_ready (faithful : Faithful L valid) {layer : TreeLayer S L T}
    (named : layer.catalogue.Named) (first : Text) (config : Config)
    {commands : List (Command (TreeLayer S L T))}
    (fits : ∀ command ∈ commands, command.Fits fun l => l.catalogue.Named) (t : Text)
    (wanted : Span)
    (held : ReadsValid valid (Queue.tell (Session.start layer first config) [.loaded first]
      (commands ++ [.pass t wanted .never]))) :
    Ready valid ((Queue.drain (Session.start layer first config) commands).1.catchUp t) := by
  have sound := drain_sound faithful named first config fits
  obtain ⟨base, tracks⟩ := Queue.drain_tracks layer first config commands
  -- The last pass tells the layer the text it catches up with, if any, and then asks for it.
  rw [Queue.tell_last] at held
  generalize (Queue.drain (Session.start layer first config) commands).1 = s at *
  generalize Queue.tell (Session.start layer first config) [.loaded first] commands = notices at *
  have current := Session.catchUp_keeps (sound_kept faithful) sound t
  rw [Session.catchUp_recording] at current
  have reads : ReadsValid valid
      ((notices ++ s.catchUpNotices t) ++ (s.catchUp t).refreshNotices) := by
    rw [List.append_assoc]
    exact held
  have caughtUp := Session.catchUp_tracks tracks t
  refine ⟨current.named, ?_, ?_, caughtUp.1, caughtUp.bounded⟩
  · refine current.inStep (ReadsValid.calls ?_)
    exact fun n member => reads n (List.mem_append_left _ member)
  · intro something
    have asked : (s.catchUp t).refreshNotices = [⟨.refresh (s.catchUp t).text
        (s.catchUp t).affected.spans (s.catchUp t).config.resolveEmbedded
        (s.catchUp t).refresh.2, (s.catchUp t).text⟩] := by
      rw [Session.refreshNotices, something]
      rfl
    rw [asked] at reads
    exact reads _ (List.mem_append_right _ (List.mem_singleton.mpr rfl)) _ rfl

-- Passes that are cancelled cost nothing but reports. The pass that finishes after them leaves the
-- session as if it had come first and renders what was asked for and all that is tracked; what the
-- layer had to report beyond that may no longer be rendered.
theorem cancelled_passes (faithful : Faithful L valid) (layer : TreeLayer S L T)
    (named : layer.catalogue.Named) (first : Text) (config : Config)
    (commands : List (Command (TreeLayer S L T)))
    (fits : ∀ command ∈ commands, command.Fits fun l => l.catalogue.Named) (t : Text)
    (wanted : Span)
    (reads : ReadsValid valid (Queue.tell (Session.start layer first config) [.loaded first]
      (commands ++ [.pass t wanted .never])))
    (cancellations : List Cancellation) (cancelled : .never ∉ cancellations) :
    let s := (Queue.drain (Session.start layer first config) commands).1
    let later := (Queue.drain s (cancellations.map fun c => .pass t wanted c)).1
    let tracked := (s.catchUp t).affected.spans
    ∃ next p q, s.pass t wanted .never = (next, some p) ∧
      later.pass t wanted .never = (next, some q) ∧
      p = next.rendered p.updated ∧ q = next.rendered q.updated ∧
      (∀ r ∈ wanted.clamp (Text.size t) :: tracked.spans,
        q.updated.start ≤ r.start ∧ r.stop ≤ q.updated.stop) ∧
      (.afterRefresh ∉ cancellations ∨ s.text ≠ t ∨ s.affected.isEmpty = true ∨
        wanted.clamp (Text.size t) = ⟨0, Text.size t⟩ → q = p) ∧
      (.afterRefresh ∈ cancellations → Quiet L → next.layer.Plain t →
        q.updated = next.updatedSpan tracked wanted ∧
          p.updated.start ≤ q.updated.start ∧ q.updated.stop ≤ p.updated.stop) := by
  intro s later tracked
  have ready : Ready valid (s.catchUp t) :=
    run_ready faithful named first config fits t wanted reads
  have read : (s.catchUp t).text = t := Session.catchUp_text s t
  have size : (s.catchUp t).document.size = Text.size t := congrArg Text.size read
  have plainly := pass_after (s := s) faithful ready [] (by simp) wanted
  have finished := pass_after (s := s) faithful ready cancellations cancelled wanted
  have spans : ∀ invalidated, (s.catchUp t).finished.updatedSpan invalidated wanted =
      (s.catchUp t).updatedSpan invalidated wanted :=
    fun _ => Session.updatedSpan_document (Session.finished_document (s.catchUp t)) _ _
  refine ⟨(s.catchUp t).finished, _, _, plainly, finished, rfl, rfl, ?_, ?_, ?_⟩
  · intro r member
    dsimp only [Session.rendered]
    rw [spans]
    exact updated_covers ready _ wanted (size.symm ▸ member)
  · intro why
    refine congrArg (Session.rendered _) ?_
    rw [spans, spans]
    refine updated_same ready ?_
    rw [size]
    rcases why with before | other | nothing | all
    · exact .inl (decide_eq_false before)
    · exact .inr (.inr (List.mem_cons_of_mem _ (catchUp_tracks_all other)))
    · by_cases current : s.text = t
      · rw [Session.catchUp_current current]
        exact .inr (.inl nothing)
      · exact .inr (.inr (List.mem_cons_of_mem _ (catchUp_tracks_all current)))
    · exact .inr (.inr (List.mem_cons.mpr (.inl all.symm)))
  · intro after quiet plain
    dsimp only [Session.rendered]
    rw [spans, spans, spans, decide_eq_true after]
    exact updated_tracked quiet faithful ready (read.symm ▸ plain) wanted

end Nesting

namespace Json.Tree

mutual

theorem changes_self : (t : Tree) → changes t t = []
  | node r k s c => by simp [changes, changesAll_self c]
  | mark m s => by simp [changes]

theorem changesAll_self : (l : List Tree) → changesAll l l = some []
  | [] => by simp [changesAll]
  | t :: rest => by simp [changesAll, changes_self t, changesAll_self rest]

end

end Json.Tree

namespace Embedding

open Nesting (cancelled_passes)

theorem language_quiet : Nesting.Quiet Language := fun _ => Json.Tree.changes_self

theorem both_own {n : String} {l : Language} (known : both.language n = .ok l) : l.name = n := by
  by_cases first : "j2" = n
  · subst first
    cases Except.ok.inj known
    rfl
  · by_cases second : "json" = n
    · subst second
      cases Except.ok.inj known
      rfl
    · have missing : both.entry? n = none := by
        simp [both, Nesting.Catalogue.entry?, first, second]
      simp [Nesting.Catalogue.language, Nesting.Catalogue.lookup, missing] at known

theorem both_named : both.Named := by
  intro n l known
  have own : Nesting.Parsing.name l = n := both_own known
  rwa [own]

instance (a b : Sublayer) : Decidable (a.Differs b) :=
  inferInstanceAs (Decidable (¬ (a.depth = b.depth ∧ a.span = b.span ∧
    Nesting.Parsing.name a.language = Nesting.Parsing.name b.language)))

def keyEdit : List (Command TreeLayer) := [.edit (.replace ⟨2, 4⟩ ['j', '2'])]

theorem keyEdit_fits (fresh : TreeLayer → Prop) : ∀ command ∈ keyEdit, command.Fits fresh := by
  simp only [keyEdit, List.forall_mem_cons]
  exact ⟨(by decide : 2 < 0x8000000000000000), nofun⟩

def unnamedText : Text := pairText ['n', 'o'] ['[', '1', ']']

def renamedText : Text := pairText ['j', '2'] ['[', '1', ']']

def renamed : Session TreeLayer := (Queue.drain (Session.start keyed unnamedText {}) keyEdit).1

theorem renamed_plain (asked : renamed.pass renamedText ⟨0, 7⟩ .never = (next, some p)) :
    next.layer.Plain renamedText := by
  have layer : next.layer = (renamed.pass renamedText ⟨0, 7⟩ .never).1.layer := by rw [asked]
  rw [layer]
  exact ⟨fun _ _ => both_own, by decide +kernel, by decide +kernel, by decide +kernel,
    by decide +kernel, by decide +kernel⟩

theorem cancelled_passes_renamed :
    let later := (Queue.drain renamed
      ([.beforeRefresh, .afterRefresh].map fun c => .pass renamedText ⟨0, 7⟩ c)).1
    ∃ next p q, renamed.pass renamedText ⟨0, 7⟩ .never = (next, some p) ∧
      later.pass renamedText ⟨0, 7⟩ .never = (next, some q) ∧
      q = next.rendered q.updated ∧
      q.updated = next.updatedSpan (renamed.catchUp renamedText).affected.spans ⟨0, 7⟩ ∧
      p.updated.start ≤ q.updated.start ∧ q.updated.stop ≤ p.updated.stop := by
  intro later
  obtain ⟨next, p, q, asked, finished, -, shown, -, -, less⟩ := cancelled_passes
    language_faithful keyed both_named unnamedText {} keyEdit (keyEdit_fits _) renamedText ⟨0, 7⟩
    (fun _ _ _ _ => trivial) [.beforeRefresh, .afterRefresh] (by decide)
  exact ⟨next, p, q, asked, finished, shown,
    less (by decide) language_quiet (renamed_plain asked)⟩

-- The sublayer that the cancelled pass read in is not rendered by the pass that finishes.
theorem cancelled_pass_loses : ¬ ∀ (layer : TreeLayer) (first : Text) (config : Config)
    (commands : List (Command TreeLayer)) (t : Text) (wanted : Span)
    (cancellations : List Cancellation), .never ∉ cancellations →
    let s := (Queue.drain (Session.start layer first config) commands).1
    ((Queue.drain s (cancellations.map fun c => .pass t wanted c)).1.pass t wanted .never).2 =
      (s.pass t wanted .never).2 := by
  intro claim
  have alone : (renamed.pass renamedText ⟨0, 7⟩ .never).2 =
      some ⟨[⟨.numbers, ⟨9, 10⟩⟩], ⟨0, 11⟩⟩ := by decide +kernel
  have after : ((Queue.drain renamed
      ([.afterRefresh].map fun c => .pass renamedText ⟨0, 7⟩ c)).1.pass renamedText ⟨0, 7⟩
        .never).2 = some ⟨[], ⟨0, 7⟩⟩ := by decide +kernel
  have same := claim keyed unnamedText {} keyEdit renamedText ⟨0, 7⟩ [.afterRefresh] (by decide)
  have equal := after.symm.trans (same.trans alone)
  simp at equal

end Embedding

end LiveHighlight
