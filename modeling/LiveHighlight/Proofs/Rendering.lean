import LiveHighlight.Proofs.Moves
import LiveHighlight.Proofs.SpanSets

-- What a pass renders: which span of the text, and of which layer it asks that span.

namespace LiveHighlight

open SpanSet (Canonical ListReaches)

namespace Session

variable {σ : Type} {s : Session σ} {t : Text} {wanted r : Span}

theorem updatedSpan_document {u : Session σ} (same : s.document = u.document)
    (invalidated : SpanSet) (wanted : Span) :
    s.updatedSpan invalidated wanted = u.updatedSpan invalidated wanted := by
  rw [updatedSpan, updatedSpan, same]

theorem updatedSpan_stop (s : Session σ) (invalidated : SpanSet) (wanted : Span) :
    (s.updatedSpan invalidated wanted).stop ≤ s.document.size := by
  unfold updatedSpan
  dsimp only
  split <;> exact Nat.min_le_right _ _

theorem updatedSpan_wanted (s : Session σ) (invalidated : SpanSet) (wanted : Span) :
    (s.updatedSpan invalidated wanted).start ≤ (wanted.clamp s.document.size).start ∧
      (wanted.clamp s.document.size).stop ≤ (s.updatedSpan invalidated wanted).stop := by
  unfold updatedSpan
  dsimp only
  split <;> simp only [Span.clamp, Span.hull] <;> omega

theorem updatedSpan_reached {invalidated : SpanSet} (canonical : Canonical invalidated.spans)
    (start : ListReaches invalidated.spans (2 * r.start))
    (stop : ListReaches invalidated.spans (2 * r.stop)) (inside : r.stop ≤ s.document.size)
    (wanted : Span) :
    (s.updatedSpan invalidated wanted).start ≤ r.start ∧
      r.stop ≤ (s.updatedSpan invalidated wanted).stop := by
  unfold updatedSpan SpanSet.hull?
  generalize invalidated.spans = l at canonical start stop
  cases l with
  | nil => simp at start
  | cons first rest =>
    cases ends : (first :: rest).getLast? with
    | none => simp at ends
    | some last =>
      have lowest := (SpanSet.reached_from_head canonical start).1
      obtain ⟨m, member, lower, upper⟩ := stop
      have highest := SpanSet.stop_le_last canonical ends m member
      simp only [List.head?_cons, Span.clamp, Span.hull]
      omega

theorem updatedSpan_holds {tracked invalidated : SpanSet} (grows : tracked.Grows invalidated)
    (canonical : Canonical tracked.spans) (member : r ∈ tracked.spans)
    (inside : r.stop ≤ s.document.size) (wanted : Span) :
    (s.updatedSpan invalidated wanted).start ≤ r.start ∧
      r.stop ≤ (s.updatedSpan invalidated wanted).stop := by
  have proper : r.start ≤ r.stop := canonical.2 r member
  exact updatedSpan_reached (grows.canonical canonical)
    (grows.reaches _ ⟨r, member, Nat.le_refl _, by omega⟩)
    (grows.reaches _ ⟨r, member, by omega, Nat.le_refl _⟩) inside wanted

theorem updatedSpan_least {invalidated : SpanSet}
    (asked : r.start ≤ (wanted.clamp s.document.size).start ∧
      (wanted.clamp s.document.size).stop ≤ r.stop)
    (holds : ∀ m ∈ invalidated.spans, r.start ≤ m.start ∧ m.stop ≤ r.stop) :
    r.start ≤ (s.updatedSpan invalidated wanted).start ∧
      (s.updatedSpan invalidated wanted).stop ≤ r.stop := by
  unfold updatedSpan SpanSet.hull?
  dsimp only
  simp only [Span.clamp] at asked
  split
  · rename_i hull ends
    split at ends
    · rename_i first last head final
      cases Option.some.inj ends
      have lower := (holds first (List.mem_of_head? head)).1
      have upper := (holds last (List.mem_of_getLast? final)).2
      simp only [Span.clamp, Span.hull]
      omega
    · cases ends
  · simpa only [Span.clamp] using asked

theorem updatedSpan_all {invalidated : SpanSet}
    (start : (s.updatedSpan invalidated wanted).start ≤ 0)
    (stop : s.document.size ≤ (s.updatedSpan invalidated wanted).stop) :
    s.updatedSpan invalidated wanted = ⟨0, s.document.size⟩ := by
  have within := updatedSpan_stop s invalidated wanted
  have parts : s.updatedSpan invalidated wanted = ⟨(s.updatedSpan invalidated wanted).start,
    (s.updatedSpan invalidated wanted).stop⟩ := rfl
  rw [parts, Span.mk.injEq]
  omega

variable [Layer σ]

def rendered (s : Session σ) (updated : Span) : Pass :=
  ⟨Highlight.ofCaptures (Layer.captures s.layer updated s.text) (Layer.category? s.layer), updated⟩

theorem rendered_same {u : Session σ} (layer : s.layer = u.layer) (text : s.text = u.text)
    (updated : Span) : s.rendered updated = u.rendered updated := by
  rw [rendered, rendered, layer, text]

def finished (s : Session σ) : Session σ := { s.refresh.1 with affected := .none }

theorem pass_never (s : Session σ) (t : Text) (wanted : Span) :
    s.pass t wanted .never = ((s.catchUp t).finished, some ((s.catchUp t).finished.rendered
      ((s.catchUp t).finished.updatedSpan (s.catchUp t).refresh.2 wanted))) := rfl

theorem finished_document (s : Session σ) : s.finished.document = s.document :=
  refresh_document s

theorem finished_text (s : Session σ) (t : Text) : (s.catchUp t).finished.text = t :=
  (refresh_text _).trans (catchUp_text s t)

theorem pass_whole (s : Session σ) (t : Text) :
    ∃ next, s.pass t ⟨0, Text.size t⟩ .never = (next, some (next.rendered ⟨0, Text.size t⟩)) ∧
      next.text = t := by
  have size : (s.catchUp t).finished.document.size = Text.size t :=
    congrArg Text.size (finished_text s t)
  obtain ⟨start, stop⟩ :=
    updatedSpan_wanted (s.catchUp t).finished (s.catchUp t).refresh.2 ⟨0, Text.size t⟩
  have whole := updatedSpan_all (by simpa [Span.clamp] using start)
    (by simpa [Span.clamp, size] using stop)
  refine ⟨(s.catchUp t).finished, ?_, finished_text s t⟩
  rw [pass_never, whole, size]

theorem start_pass (layer : σ) (t : Text) (config : Config) (wanted : Span) :
    ((start layer t config).pass t wanted .never).1.layer = Layer.load layer t := by
  have current : (start layer t config).catchUp t = start layer t config := catchUp_current rfl
  rw [pass_never, current]
  rfl

end Session

end LiveHighlight
