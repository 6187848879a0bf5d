import LiveHighlight.Proofs.Tracking

-- Where the bytes of an edited text come from. Outside of what is affected they all come from the
-- text that a pass last finished on.

namespace LiveHighlight

open SpanSet

namespace Replacement

variable {r : Replacement} {i : Nat} {P : Nat → Prop}

-- The byte before the replacement that a byte comes from, unless the replacement put it in.
def origin? (r : Replacement) (i : Nat) : Option Nat :=
  if i < r.new.start then some i
  else if r.new.stop ≤ i then some (i - r.new.stop + r.old.stop)
  else none

def origins? : List Replacement → Nat → Option Nat
  | [], i => some i
  | r :: earlier, i => (r.origin? i).bind (origins? earlier)

def Before (P : Nat → Prop) (i : Nat) : Prop := ∀ k, P k → 2 * i < k

def Behind (P : Nat → Prop) (i : Nat) : Prop := ∀ k, P k → k ≤ 2 * i

theorem origin_before (aligned : r.Aligned) (before : Before (r.Carried P) i) :
    r.origin? i = some i ∧ Before P i := by
  have starts := aligned.starts
  have proper : r.new.start ≤ r.new.stop := aligned.new
  have early : 2 * i < 2 * r.new.start := before _ (.inl ⟨Nat.le_refl _, by omega⟩)
  refine ⟨if_pos (by omega), ?_⟩
  intro k reached
  by_cases front : k < 2 * r.old.start
  · exact before k (.inr (.inl ⟨front, reached⟩))
  · omega

theorem origin_behind (aligned : r.Aligned) (behind : Behind (r.Carried P) i) :
    ∃ j, r.origin? i = some j ∧ j + r.new.stop = i + r.old.stop ∧ Behind P j := by
  have proper : r.new.start ≤ r.new.stop := aligned.new
  have late : 2 * r.new.stop ≤ 2 * i := behind _ (.inl ⟨by omega, Nat.le_refl _⟩)
  refine ⟨i - r.new.stop + r.old.stop, ?_, by omega, ?_⟩
  · rw [origin?, if_neg (by omega), if_pos (by omega)]
  · intro k reached
    by_cases back : 2 * r.old.stop < k
    · have moved : k - 2 * r.old.stop + 2 * r.new.stop - 2 * r.new.stop + 2 * r.old.stop = k := by
        omega
      have carried := behind (k - 2 * r.old.stop + 2 * r.new.stop)
        (.inr (.inr ⟨by omega, by rwa [moved]⟩))
      omega
    · omega

end Replacement

namespace Session

open Replacement

variable {σ : Type} {s : Session σ} {base : Text} {l : List Replacement}

structure Traces (s : Session σ) (base : Text) (l : List Replacement) : Prop where
  tracks : s.Tracks base
  before : ∀ i, Before (ListReaches s.affected.spans.spans) i → origins? l i = some i
  behind : ∀ i, Behind (ListReaches s.affected.spans.spans) i →
    ∃ j, origins? l i = some j ∧ j + Text.size s.text = i + Text.size base

theorem traces_start (nothing : s.affected = .none) : s.Traces s.text [] := by
  refine ⟨?_, fun _ _ => rfl, fun i _ => ⟨i, rfl, rfl⟩⟩
  unfold Tracks
  rw [nothing]
  exact ⟨empty_canonical, .kept 0 _⟩

variable [Layer σ] {t next : Session σ}

-- Accepted edits with cancelled passes in between; the last replacement comes first.
inductive Edited (s : Session σ) : List Replacement → Session σ → Prop where
  | start : Edited s [] s
  | edit {l : List Replacement} {t next : Session σ} {e : Edit} {splice : Splice}
      (earlier : Edited s l t) (accepted : t.edit e = .ok next)
      (taken : t.document.edit e = .ok (next.document, splice)) :
      Edited s (splice.replacement :: l) next
  | cancelled {l : List Replacement} {t next : Session σ} {wanted : Span} {c : Cancellation}
      (earlier : Edited s l t) (passed : t.pass t.text wanted c = (next, none)) : Edited s l next

theorem edited_once {e : Edit} {document : Document} {splice : Splice}
    (taken : s.document.edit e = .ok (document, splice)) :
    s.Edited [splice.replacement]
      { s with
        layer := Layer.edit s.layer splice
        document := document
        affected := s.affected.add e.edited e.delta
        lastIntake := .incremental } := by
  refine .edit .start ?_ taken
  unfold edit
  rw [taken]

theorem traces_edit {e : Edit} {splice : Splice} (traces : s.Traces base l)
    (accepted : s.edit e = .ok next) (taken : s.document.edit e = .ok (next.document, splice)) :
    next.Traces base (splice.replacement :: l) := by
  obtain ⟨other, left, old, right, spliced⟩ := edit_spliced accepted
  cases taken.symm.trans spliced.taken
  have aligned := spliced.aligned
  have reaches : ListReaches next.affected.spans.spans =
      splice.replacement.Carried (ListReaches s.affected.spans.spans) := by
    funext k
    rw [spliced.affected]
    exact propext (carry_insert_reaches aligned traces.tracks.1)
  refine ⟨edit_tracks traces.tracks accepted, ?_, ?_⟩
  · intro i before
    rw [reaches] at before
    obtain ⟨here, earlier⟩ := origin_before aligned before
    rw [origins?, here]
    exact traces.before i earlier
  · intro i behind
    rw [reaches] at behind
    obtain ⟨j, here, moved, earlier⟩ := origin_behind aligned behind
    obtain ⟨n, there, place⟩ := traces.behind j earlier
    refine ⟨n, by rw [origins?, here]; exact there, ?_⟩
    rw [spliced.before] at place
    rw [spliced.after]
    simp only [spliced.replacement, Text.size_append] at moved place ⊢
    omega

theorem refresh_same (s : Session σ) :
    s.refresh.1.affected = s.affected ∧ s.refresh.1.document = s.document := by
  unfold refresh
  split <;> exact ⟨rfl, rfl⟩

theorem cancelled_same {wanted : Span} {c : Cancellation}
    (passed : t.pass t.text wanted c = (next, none)) :
    (next = t ∨ next = t.refresh.1) ∧ next.affected = t.affected ∧ next.document = t.document := by
  have present : t.catchUp t.text = t := if_pos rfl
  unfold pass at passed
  rw [present] at passed
  cases c with
  | never => cases passed
  | beforeRefresh =>
    cases passed
    exact ⟨.inl rfl, rfl, rfl⟩
  | afterRefresh =>
    cases passed
    exact ⟨.inr rfl, refresh_same t⟩

theorem edited_traces (nothing : s.affected = .none) (edited : s.Edited l t) :
    t.Traces s.text l := by
  induction edited with
  | start => exact traces_start nothing
  | edit earlier accepted taken ih => exact traces_edit ih accepted taken
  | cancelled earlier passed ih =>
    obtain ⟨-, affected, document⟩ := cancelled_same passed
    obtain ⟨tracks, before, behind⟩ := ih
    unfold Tracks text at tracks
    unfold text at behind
    rw [← affected, ← document] at tracks
    rw [← affected] at before behind
    rw [← document] at behind
    exact ⟨tracks, before, behind⟩

end Session

end LiveHighlight
