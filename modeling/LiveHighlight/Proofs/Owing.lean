import LiveHighlight.Proofs.Cancelling
import LiveHighlight.Proofs.Repaint

-- What is tracked as affected is owed a rendering. A finished pass renders all that is owed when
-- it comes to its layer; until then nothing that is owed gets lost, wherever it is carried.

namespace LiveHighlight

open SpanSet (Canonical ListReaches)

namespace Replacement

variable {r : Replacement} {a b : Span}

theorem carry_covers (aligned : r.Aligned) (proper : b.Proper) (covers : a.Covers b) :
    (r.carry a).Covers (r.carry b) := by
  obtain ⟨starts, old, new⟩ := aligned
  obtain ⟨lower, upper⟩ := covers
  unfold Span.Proper at old new proper
  simp only [Span.Covers, carry, carryOffset]
  split_ifs <;> omega

theorem carry_holds {spans : SpanSet} (aligned : r.Aligned) (proper : b.Proper)
    (held : spans.Holds b) : ((spans.carry r).insert r.new).Holds (r.carry b) := by
  obtain ⟨m, member, covers⟩ := held
  have carried : (spans.carry r).Holds (r.carry m) :=
    SpanSet.insertAll_holds carry_proper (.inl (List.mem_map_of_mem member))
  obtain ⟨n, listed, wider⟩ := SpanSet.insert_holds carried r.new
  exact ⟨n, listed, wider.trans (carry_covers aligned proper covers)⟩

end Replacement

def Layer.Thorough (σ : Type) [Layer σ] : Prop :=
  ∀ (l : σ) (t : Text) (affecting : SpanSet) (withEmbedded : Bool),
    Canonical affecting.spans → (∀ r ∈ affecting.spans, r.stop ≤ Text.size t) →
    Canonical (Layer.refresh l t affecting withEmbedded).2.spans ∧ ∀ r ∈ affecting.spans,
      ListReaches (Layer.refresh l t affecting withEmbedded).2.spans (2 * r.start) ∧
        ListReaches (Layer.refresh l t affecting withEmbedded).2.spans (2 * r.stop)

theorem Rules.RuleLayer.thorough : Layer.Thorough RuleLayer := by
  intro l t affecting _ canonical inside
  have parts : ∀ r ∈ affecting.spans, Widened l t r := fun r member =>
    widened_parts l (canonical.2 r member) (inside r member)
  refine ⟨SpanSet.ofList_canonical _, fun r member => ?_⟩
  have own : r.start ≤ r.stop := canonical.2 r member
  obtain ⟨-, ⟨left, -, -, -, start, lower⟩, ⟨upper, -⟩, -⟩ := parts r member
  have listed : l.widened t r ∈ affecting.spans.map (l.widened t) := List.mem_map_of_mem member
  refine ⟨(SpanSet.ofList_reaches _).mpr ⟨_, listed, ?_⟩,
    (SpanSet.ofList_reaches _).mpr ⟨_, listed, ?_⟩⟩
  · exact ⟨by omega, by omega⟩
  · exact ⟨by omega, by omega⟩

theorem Nesting.TreeLayer.thorough (S L T : Type) [Compiling S L] [Parsing L T] :
    Layer.Thorough (TreeLayer S L T) := by
  intro l t affecting withEmbedded canonical _
  have grows : affecting.Grows (Layer.refresh l t affecting withEmbedded).2 :=
    refresh_grows l t affecting withEmbedded
  refine ⟨grows.canonical canonical, fun r member => ?_⟩
  have own : r.start ≤ r.stop := canonical.2 r member
  exact ⟨grows.reaches _ ⟨r, member, Nat.le_refl _, by omega⟩,
    grows.reaches _ ⟨r, member, by omega, Nat.le_refl _⟩⟩

variable {σ : Type}

namespace Session

variable {s next : Session σ} {base t : Text} {wanted r : Span} {e : Edit} {n : Nat}

def Owes (s : Session σ) (r : Span) : Prop := s.affected.spans.Holds r

theorem only_holds (inside : r.stop ≤ n) : (Affected.only ⟨0, n⟩).spans.Holds r := by
  have proper : (⟨0, n⟩ : Span).Proper := Nat.zero_le n
  have whole : (Affected.only ⟨0, n⟩).spans.Holds ⟨0, n⟩ := SpanSet.insert_own proper
  obtain ⟨m, member, lower, upper⟩ := whole
  exact ⟨m, member, Nat.le_trans lower (Nat.zero_le _), Nat.le_trans inside upper⟩

theorem owes_within (tracks : s.Tracks base) (owes : s.Owes r) : r.stop ≤ s.document.size := by
  obtain ⟨m, member, -, upper⟩ := owes
  exact Nat.le_trans upper (tracks.bounded m member).2

theorem updatedSpan_ordered (s : Session σ) (invalidated : SpanSet) (wanted : Span) :
    (s.updatedSpan invalidated wanted).start ≤ (s.updatedSpan invalidated wanted).stop := by
  unfold updatedSpan
  dsimp only
  split <;> exact Nat.min_le_right _ _

variable [Layer σ]

theorem reload_owes (s : Session σ) (t : Text) : (s.reload t).Owes ⟨0, Text.size t⟩ :=
  only_holds (Nat.le_refl _)

theorem edit_refuses {refusal : Refusal} (taken : s.document.edit e = .error refusal) :
    s.edit e = .error refusal := by
  rw [edit, taken]

theorem edit_owes (proper : r.Proper) (owes : s.Owes r)
    {document : Document} {splice : Splice}
    (taken : s.document.edit e = .ok (document, splice)) :
    ∃ next, s.edit e = .ok next ∧ next.document = document ∧
      next.Owes (splice.replacement.carry r) := by
  obtain ⟨next, accepted, same⟩ := edit_accepted taken
  obtain ⟨made, left, old, right, spliced⟩ := edit_spliced accepted
  cases spliced.taken.symm.trans taken
  refine ⟨next, accepted, same, ?_⟩
  unfold Owes
  rw [spliced.affected]
  exact Replacement.carry_holds spliced.aligned proper owes

theorem updatedSpan_owed (thorough : Layer.Thorough σ) (tracks : s.Tracks base)
    (tracked : r ∈ s.affected.spans.spans) (wanted : Span) :
    (s.updatedSpan s.refresh.2 wanted).Covers r := by
  have something : s.affected.isEmpty = false := by
    cases nothing : s.affected.isEmpty with
    | false => rfl
    | true =>
      rw [List.isEmpty_iff.mp nothing] at tracked
      cases tracked
  have asked : s.refresh.2 =
      (Layer.refresh s.layer s.text s.affected.spans s.config.resolveEmbedded).2 := by
    rw [refresh, something]
    rfl
  obtain ⟨canonical, each⟩ := thorough s.layer s.text s.affected.spans s.config.resolveEmbedded
    tracks.1 fun m member => (tracks.bounded m member).2
  rw [← asked] at canonical each
  obtain ⟨start, stop⟩ := each r tracked
  exact updatedSpan_reached canonical start stop (tracks.bounded r tracked).2 wanted

-- A pass that finishes covers all that is wanted and all that was tracked, and owes nothing from
-- then on; one that is cancelled owes what it owed.
structure Pays (s : Session σ) (t : Text) (wanted : Span) : Prop where
  finished : ∃ next p, s.pass t wanted .never = (next, some p) ∧
    p.updated.start ≤ p.updated.stop ∧ p.updated.stop ≤ Text.size t ∧
    p.updated.Covers (wanted.clamp (Text.size t)) ∧
    (∀ r ∈ (s.catchUp t).affected.spans.spans, p.updated.Covers r) ∧ next.affected = .none
  cancelled : ∀ c ≠ .never, ∃ next, s.pass t wanted c = (next, none) ∧
    next.affected = (s.catchUp t).affected

theorem Tracks.pays (tracks : s.Tracks base) (thorough : Layer.Thorough σ) (t : Text)
    (wanted : Span) : s.Pays t wanted := by
  have current : (s.catchUp t).Tracks base := catchUp_tracks tracks t
  have size : (s.catchUp t).document.size = Text.size t := congrArg Text.size (catchUp_text s t)
  refine ⟨⟨_, _, pass_never s t wanted, ?_⟩, ?_⟩
  · simp only [rendered]
    rw [updatedSpan_document (finished_document (s.catchUp t))]
    refine ⟨updatedSpan_ordered _ _ _, ?_, ?_, ?_, rfl⟩
    · rw [← size]
      exact updatedSpan_stop _ _ _
    · rw [← size]
      exact updatedSpan_wanted _ _ _
    · exact fun r tracked => updatedSpan_owed thorough current tracked wanted
  · intro c other
    cases c with
    | never => exact absurd rfl other
    | beforeRefresh => exact ⟨_, rfl, rfl⟩
    | afterRefresh => exact ⟨_, rfl, refresh_affected _⟩

end Session

namespace Queue

variable {σ : Type} {s : Session σ} {base : Text} {r : Span}

-- Of a text that is read anew a region may be any part.
def carried (s : Session σ) (r : Span) : Command σ → Span
  | .edit e =>
    match s.document.edit e with
    | .ok (_, splice) => splice.replacement.carry r
    | .error _ => r
  | .follow e t =>
    if s.text = t then r
    else
      match s.document.edit e with
      | .ok (document, splice) =>
        if document.text = t then splice.replacement.carry r else ⟨0, Text.size t⟩
      | .error _ => ⟨0, Text.size t⟩
  | .overwrite t =>
    if s.text = t then r
    else
      match s.document.edit (.replace ⟨0, s.document.size⟩ t) with
      | .ok (_, splice) => splice.replacement.carry r
      | .error _ => ⟨0, Text.size t⟩
  | .pass t _ _ => if s.text = t then r else ⟨0, Text.size t⟩
  | .exchange _ => r
  | .snapshot => r

theorem carried_proper (proper : r.Proper) (command : Command σ) :
    (carried s r command).Proper := by
  have whole (n : Nat) : (⟨0, n⟩ : Span).Proper := Nat.zero_le n
  cases command with
  | edit e =>
    simp only [carried]
    split
    · exact Replacement.carry_proper
    · exact proper
  | follow e t =>
    simp only [carried]
    split
    · exact proper
    · split
      · split
        · exact Replacement.carry_proper
        · exact whole _
      · exact whole _
  | overwrite t =>
    simp only [carried]
    split
    · exact proper
    · split
      · exact Replacement.carry_proper
      · exact whole _
  | exchange layer => exact proper
  | pass t wanted cancelled =>
    simp only [carried]
    split
    · exact proper
    · exact whole _
  | snapshot => exact proper

variable [Layer σ]

def carriedOn (s : Session σ) (r : Span) : List (Command σ) → Span
  | [] => r
  | command :: rest => carriedOn (step s command).1 (carried s r command) rest

def Renders (s : Session σ) (r : Span) : List (Command σ) → Prop
  | [] => False
  | command :: rest =>
    (∃ p, (step s command).2 = some (.pass (some p)) ∧ p.updated.Covers (carried s r command)) ∨
      Renders (step s command).1 (carried s r command) rest

theorem catchUp_owes (owes : s.Owes r) (t : Text) (wanted : Span) (cancelled : Cancellation) :
    (s.catchUp t).Owes (carried s r (.pass t wanted cancelled)) := by
  simp only [carried, Session.catchUp]
  split
  · exact owes
  · exact Session.reload_owes s t

-- A region that is owed is rendered by the command, or still owed where it has come to.
theorem step_owes (thorough : Layer.Thorough σ) (tracks : s.Tracks base) (proper : r.Proper)
    (owes : s.Owes r) (command : Command σ) :
    (∃ p, (step s command).2 = some (.pass (some p)) ∧ p.updated.Covers (carried s r command)) ∨
      (step s command).1.Owes (carried s r command) := by
  cases command with
  | edit e =>
    refine .inr ?_
    simp only [step, carried]
    cases taken : s.document.edit e with
    | error refusal =>
      rw [Session.edit_refuses taken]
      exact owes
    | ok parts =>
      obtain ⟨next, accepted, -, held⟩ := Session.edit_owes proper owes taken
      rw [accepted]
      exact held
  | follow e t =>
    refine .inr ?_
    simp only [step, carried, Session.follow]
    split
    · exact owes
    · cases taken : s.document.edit e with
      | error refusal =>
        rw [Session.edit_refuses taken]
        exact Session.reload_owes s t
      | ok parts =>
        obtain ⟨next, accepted, document, held⟩ := Session.edit_owes proper owes taken
        simp only [accepted, Session.text, document]
        split
        · exact held
        · exact Session.reload_owes next t
  | overwrite t =>
    refine .inr ?_
    simp only [step, carried, Session.overwrite]
    split
    · exact owes
    · cases taken : s.document.edit (.replace ⟨0, s.document.size⟩ t) with
      | error refusal =>
        rw [Session.edit_refuses taken]
        exact Session.reload_owes s t
      | ok parts =>
        obtain ⟨next, accepted, -, held⟩ := Session.edit_owes proper owes taken
        rw [accepted]
        exact held
  | exchange layer => exact .inr (Session.only_holds (Session.owes_within tracks owes))
  | pass t wanted cancelled =>
    obtain ⟨m, tracked, covers⟩ := catchUp_owes owes t wanted cancelled
    obtain ⟨⟨next, p, passed, -, -, -, all, -⟩, kept⟩ := tracks.pays thorough t wanted
    by_cases finishes : cancelled = .never
    · subst finishes
      refine .inl ⟨p, ?_, (all m tracked).trans covers⟩
      simp only [step, passed]
    · obtain ⟨next, passed, affected⟩ := kept cancelled finishes
      refine .inr ⟨m, ?_, covers⟩
      simp only [step, passed, affected]
      exact tracked
  | snapshot => exact .inr owes

theorem drain_owes (thorough : Layer.Thorough σ) (tracks : s.Tracks base) (proper : r.Proper)
    (owes : s.Owes r) (commands : List (Command σ)) :
    Renders s r commands ∨ (drain s commands).1.Owes (carriedOn s r commands) := by
  induction commands generalizing s base r with
  | nil => exact .inr owes
  | cons command rest ih =>
    rcases step_owes thorough tracks proper owes command with rendered | still
    · exact .inl (.inl rendered)
    · exact (ih (step_tracks tracks command) (carried_proper proper command) still).imp_left .inr

end Queue

variable {σ : Type} [Layer σ]

structure Session.Honest (s : Session σ) : Prop where
  pays : ∀ t wanted, s.Pays t wanted
  owes : ∀ r ∈ s.affected.spans.spans, ∀ later, Queue.Renders s r later ∨
    (Queue.drain s later).1.Owes (Queue.carriedOn s r later)

theorem Queue.drain_honest (thorough : Layer.Thorough σ) (layer : σ) (first : Text)
    (config : Config) (commands : List (Command σ)) :
    (drain (Session.start layer first config) commands).1.Honest := by
  obtain ⟨base, tracks⟩ := drain_tracks layer first config commands
  refine ⟨fun t wanted => tracks.pays thorough t wanted, fun r tracked later => ?_⟩
  have own : (drain (Session.start layer first config) commands).1.Owes r :=
    ⟨r, tracked, Nat.le_refl _, Nat.le_refl _⟩
  exact drain_owes thorough tracks (tracks.1.2 r tracked) own later

-- Rules and trees leave out nothing, so no session over them forgets an affected region.
theorem affected_rendered :
    (∀ (layer : Rules.RuleLayer) (first : Text) (config : Config)
      (commands : List (Command Rules.RuleLayer)),
      (Queue.drain (Session.start layer first config) commands).1.Honest) ∧
    ∀ (S L T : Type) [Nesting.Compiling S L] [Nesting.Parsing L T]
      (layer : Nesting.TreeLayer S L T) (first : Text) (config : Config)
      (commands : List (Command (Nesting.TreeLayer S L T))),
      (Queue.drain (Session.start layer first config) commands).1.Honest :=
  ⟨Queue.drain_honest Rules.RuleLayer.thorough,
    fun S L T => Queue.drain_honest (Nesting.TreeLayer.thorough S L T)⟩

end LiveHighlight
