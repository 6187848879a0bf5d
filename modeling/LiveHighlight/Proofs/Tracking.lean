import Mathlib.Tactic.SplitIfs
import LiveHighlight.Proofs.Editing
import LiveHighlight.Proofs.Patchwork
import LiveHighlight.Queue

-- What is affected, over any run of a session: outside the tracked spans the text is that of the
-- last finished pass.

namespace LiveHighlight

open SpanSet

namespace Replacement

variable {r : Replacement} {s : Span} {l : List Span} {k : Nat}

structure Aligned (r : Replacement) : Prop where
  starts : r.new.start = r.old.start
  old : r.old.Proper
  new : r.new.Proper

-- The new bytes, and all that was reached on either side of the old ones.
def Carried (r : Replacement) (reached : Nat → Prop) (k : Nat) : Prop :=
  r.new.Reaches k ∨ (k < 2 * r.old.start ∧ reached k) ∨
    (2 * r.new.stop < k ∧ reached (k - 2 * r.new.stop + 2 * r.old.stop))

def Apart (r : Replacement) (s : Span) : Prop :=
  s.stop < r.old.start ∨ r.old.stop < s.start ∨ (s.start ≤ r.old.start ∧ r.old.stop ≤ s.stop)

theorem carry_proper : (r.carry s).Proper := by
  unfold Span.Proper carry
  dsimp only
  omega

theorem carry_reaches (aligned : r.Aligned) (proper : s.Proper) :
    r.new.Reaches k ∨ (r.carry s).Reaches k ↔ r.Carried s.Reaches k := by
  obtain ⟨starts, old, new⟩ := aligned
  unfold Span.Proper at old new proper
  simp only [Carried, Span.Reaches, carry, carryOffset]
  split_ifs <;> omega

theorem stretch_reaches (aligned : r.Aligned) (proper : s.Proper) (apart : r.Apart s) :
    r.new.Reaches k ∨ (r.stretch s).Reaches k ↔ r.Carried s.Reaches k := by
  obtain ⟨starts, old, new⟩ := aligned
  unfold Span.Proper at old new proper
  simp only [Carried, Span.Reaches, stretch]
  rcases apart with before | behind | held <;> split_ifs <;> omega

theorem holder_reaches (aligned : r.Aligned) (lower : s.start ≤ r.old.start)
    (upper : r.old.stop ≤ s.stop) (reached : r.new.Reaches k) : (r.stretch s).Reaches k := by
  obtain ⟨starts, old, new⟩ := aligned
  unfold Span.Proper at old new
  unfold Span.Reaches at reached
  simp only [Span.Reaches, stretch]
  split_ifs <;> omega

-- What is reached of the replaced bytes themselves does not matter.
theorem carried_outside {P Q : Nat → Prop} (same : ∀ k, ¬ r.old.Reaches k → (P k ↔ Q k)) :
    r.Carried P k ↔ r.Carried Q k := by
  unfold Carried
  have before : k < 2 * r.old.start → (P k ↔ Q k) := fun early =>
    same k fun reached => by
      have lower := reached.1
      omega
  have behind : 2 * r.new.stop < k → (P (k - 2 * r.new.stop + 2 * r.old.stop) ↔
      Q (k - 2 * r.new.stop + 2 * r.old.stop)) := fun late =>
    same _ fun reached => by
      have upper := reached.2
      omega
  rw [and_congr_right before, and_congr_right behind]

theorem carried_or {P Q : Nat → Prop} :
    r.Carried (fun k => P k ∨ Q k) k ↔ r.Carried P k ∨ r.Carried Q k := by
  unfold Carried
  grind

theorem map_reaches {f : Span → Span}
    (each : ∀ s ∈ l, r.new.Reaches k ∨ (f s).Reaches k ↔ r.Carried s.Reaches k) :
    r.new.Reaches k ∨ ListReaches (l.map f) k ↔ r.Carried (ListReaches l) k := by
  induction l with
  | nil => simp [Carried]
  | cons s rest ih =>
    have first := each s (by simp)
    have others := ih fun t member => each t (by simp [member])
    have whole : ListReaches (s :: rest) = fun k => s.Reaches k ∨ ListReaches rest k :=
      funext fun k => propext listReaches_cons
    rw [List.map_cons, listReaches_cons, or_or_distrib_left, first, others, whole, carried_or]

theorem place_apart (canonical : Canonical l) (old : r.old.Proper) :
    ∀ s ∈ place r.old l, r.Apart s := by
  intro s member
  obtain ⟨t, held, lower, upper⟩ := place_holds r.old l
  rcases (place_canonical canonical old).parted member held with rfl | before | behind
  · exact .inr (.inr ⟨lower, upper⟩)
  · exact .inl (by omega)
  · exact .inr (.inl (by omega))

theorem stretch_canonical (aligned : r.Aligned) (canonical : Canonical l)
    (apart : ∀ s ∈ l, r.Apart s) : Canonical (l.map r.stretch) := by
  obtain ⟨starts, old, new⟩ := aligned
  unfold Span.Proper at old new
  constructor
  · apply List.pairwise_map.mpr
    apply canonical.1.imp_of_mem
    intro a b first second before
    have proper : a.start ≤ a.stop := canonical.2 a first
    have following : b.start ≤ b.stop := canonical.2 b second
    have held := apart a first
    have other := apart b second
    unfold Apart at held other
    simp only [stretch]
    split_ifs <;> omega
  · intro s member
    obtain ⟨t, held, rfl⟩ := List.mem_map.mp member
    have proper : t.start ≤ t.stop := canonical.2 t held
    have parted := apart t held
    unfold Apart at parted
    simp only [Span.Proper, stretch]
    split_ifs <;> omega

theorem carry_insert_reaches {spans : SpanSet} (aligned : r.Aligned)
    (canonical : Canonical spans.spans) :
    ListReaches ((spans.carry r).insert r.new).spans k ↔ r.Carried (ListReaches spans.spans) k := by
  rw [insert_reaches, SpanSet.carry, ofList_reaches]
  exact map_reaches fun s member => carry_reaches aligned (canonical.2 s member)

-- The same as adding the replaced span first and stretching the one that then holds it.
theorem carry_insert {spans : SpanSet} (aligned : r.Aligned) (canonical : Canonical spans.spans) :
    ((spans.carry r).insert r.new).spans = (place r.old spans.spans).map r.stretch := by
  have placed := place_canonical canonical aligned.old
  have apart := place_apart canonical aligned.old
  apply canonical_unique (insert_canonical (ofList_canonical _))
    (stretch_canonical aligned placed apart)
  intro k
  have stretched : ListReaches ((place r.old spans.spans).map r.stretch) k ↔
      r.Carried (ListReaches (place r.old spans.spans)) k := by
    have each := map_reaches (k := k) fun s member =>
      stretch_reaches aligned (placed.2 s member) (apart s member)
    have own : r.new.Reaches k → ListReaches ((place r.old spans.spans).map r.stretch) k := by
      intro reached
      obtain ⟨s, member, lower, upper⟩ := place_holds r.old spans.spans
      exact ⟨r.stretch s, List.mem_map_of_mem member, holder_reaches aligned lower upper reached⟩
    rw [← each, or_iff_right_of_imp own]
  refine (carry_insert_reaches aligned canonical).trans (Iff.trans ?_ stretched.symm)
  exact carried_outside fun k outside => by rw [place_reaches, or_iff_right outside]

end Replacement

theorem Affected.add_exact {a : Affected} {left old : Text} {e : Edit}
    (range : e.replaced? = some ⟨Text.size left, Text.size left + Text.size old⟩)
    (edited : e.edited = ⟨Text.size left, Text.size left + Text.size e.inserted⟩) :
    a.add e.edited e.delta = ⟨(a.spans.carry
      ⟨⟨Text.size left, Text.size left + Text.size old⟩, e.edited⟩).insert e.edited⟩ := by
  obtain ⟨-, -, -, length⟩ := Edit.replaced?_parts range
  simp only [Span.length, Nat.add_sub_cancel_left] at length
  unfold Affected.add
  rw [Span.length, ← length, Int.toNat_natCast, edited]

namespace Session

variable {σ : Type} [Layer σ] {s next : Session σ} {base : Text}

structure Spliced (s : Session σ) (e : Edit) (next : Session σ) (splice : Splice)
    (left old right : Text) : Prop where
  taken : s.document.edit e = .ok (next.document, splice)
  layer : next.layer = Layer.edit s.layer splice
  before : s.text = left ++ (old ++ right)
  after : next.text = left ++ (e.inserted ++ right)
  replacement : splice.replacement = ⟨⟨Text.size left, Text.size left + Text.size old⟩,
    ⟨Text.size left, Text.size left + Text.size e.inserted⟩⟩
  affected : next.affected.spans =
    (s.affected.spans.carry splice.replacement).insert splice.replacement.new

theorem Spliced.aligned {e : Edit} {splice : Splice} {left old right : Text}
    (spliced : s.Spliced e next splice left old right) : splice.replacement.Aligned := by
  rw [spliced.replacement]
  exact ⟨rfl, Nat.le_add_right _ _, Nat.le_add_right _ _⟩

theorem edit_spliced {e : Edit} (accepted : s.edit e = .ok next) :
    ∃ splice left old right, s.Spliced e next splice left old right := by
  unfold Session.edit at accepted
  split at accepted
  · cases accepted
  · rename_i document splice taken
    cases Except.ok.inj accepted
    cases Document.edit_exact.mp taken with
    | @splice left old right _ _ _ whole range edited =>
      refine ⟨_, left, old, right, taken, rfl, whole, rfl, rfl, ?_⟩
      dsimp only [Splice.replacement]
      rw [Affected.add_exact range edited, edited]

-- The session's text goes back to the base outside what is affected.
def Tracks (s : Session σ) (base : Text) : Prop :=
  Canonical s.affected.spans.spans ∧ Patchwork 0 s.affected.spans.spans base s.text

theorem start_tracks (layer : σ) (t : Text) (config : Config) : (start layer t config).Tracks t :=
  ⟨empty_canonical, .kept 0 t⟩

theorem only_canonical (n : Nat) : Canonical (Affected.only ⟨0, n⟩).spans.spans :=
  insert_canonical empty_canonical

theorem only_patched (base t : Text) :
    Patchwork 0 (Affected.only ⟨0, Text.size t⟩).spans.spans base t := by
  have whole : Patchwork 0 [⟨0, Text.size t⟩] ([] ++ (base ++ [])) ([] ++ (t ++ [])) :=
    .changed [] base t rfl (by simp) (.kept _ [])
  simpa [Affected.only, ofSpan, SpanSet.insert, place, SpanSet.empty] using whole

theorem reload_tracks (s : Session σ) (t base : Text) : (s.reload t).Tracks base :=
  ⟨only_canonical _, only_patched base t⟩

theorem exchange_tracks (s : Session σ) (layer : σ) (base : Text) :
    (s.exchange layer).1.Tracks base := ⟨only_canonical _, only_patched base s.text⟩

theorem edit_tracks (tracks : s.Tracks base) (accepted : s.edit e = .ok next) :
    next.Tracks base := by
  obtain ⟨canonical, patched⟩ := tracks
  obtain ⟨splice, left, old, right, spliced⟩ := edit_spliced accepted
  have aligned := spliced.aligned
  have affected := spliced.affected
  generalize replaced : splice.replacement = r at aligned affected
  have range := replaced.symm.trans spliced.replacement
  have starts : r.old.start = Text.size left := by rw [range]
  have stops : r.old.stop = r.old.start + Text.size old := by rw [range]
  have grown : r.new.stop = r.old.start + Text.size e.inserted := by rw [range]
  have joined : Patchwork 0 (place r.old s.affected.spans.spans) base s.text := by
    rw [range]
    exact patched.place spliced.before (by simp) (by simp)
  rw [spliced.before] at joined
  have stretched := joined.replaced left e.inserted (place_canonical canonical aligned.old)
    (by omega) stops grown (place_holds _ _)
  refine ⟨?_, ?_⟩
  · rw [affected]
    exact insert_canonical (ofList_canonical _)
  · rw [affected, Replacement.carry_insert aligned canonical, spliced.after]
    exact stretched

theorem follow_tracks (tracks : s.Tracks base) (e : Edit) (t : Text) :
    (s.follow e t).Tracks base := by
  unfold follow
  split
  · exact tracks
  · split
    · rename_i next accepted
      split
      · exact edit_tracks tracks accepted
      · exact reload_tracks next t base
    · exact reload_tracks s t base

theorem overwrite_tracks (tracks : s.Tracks base) (t : Text) : (s.overwrite t).Tracks base := by
  unfold overwrite
  split
  · exact tracks
  · split
    · rename_i next accepted
      exact edit_tracks tracks accepted
    · exact reload_tracks s t base

theorem catchUp_tracks (tracks : s.Tracks base) (t : Text) : (s.catchUp t).Tracks base := by
  unfold catchUp
  split
  · exact tracks
  · exact reload_tracks s t base

theorem refresh_tracks (tracks : s.Tracks base) : s.refresh.1.Tracks base := by
  unfold refresh
  split
  · exact tracks
  · exact tracks

theorem pass_tracks (tracks : s.Tracks base) (t : Text) (wanted : Span)
    (cancelled : Cancellation) :
    match s.pass t wanted cancelled with
    | (next, some _) => next.Tracks next.text
    | (next, none) => next.Tracks base := by
  have current := catchUp_tracks tracks t
  cases cancelled with
  | never => exact ⟨empty_canonical, .kept 0 _⟩
  | beforeRefresh => exact current
  | afterRefresh => exact refresh_tracks current

end Session

namespace Queue

variable {σ : Type} [Layer σ]

-- The text a pass last finished on, once a command has been run.
def baseline (before : Text) (next : Session σ) : Option Reply → Text
  | some (.pass (some _)) => next.text
  | _ => before

def run (s : Session σ) (base : Text) : List (Command σ) → Session σ × Text
  | [] => (s, base)
  | command :: rest =>
    let (next, reply) := step s command
    run next (baseline base next reply) rest

theorem run_drains (s : Session σ) (base : Text) (commands : List (Command σ)) :
    (run s base commands).1 = (drain s commands).1 := by
  induction commands generalizing s base with
  | nil => rfl
  | cons command rest ih => exact ih _ _

theorem step_tracks {s : Session σ} {base : Text} (tracks : s.Tracks base)
    (command : Command σ) :
    (step s command).1.Tracks (baseline base (step s command).1 (step s command).2) := by
  cases command with
  | follow e t => exact Session.follow_tracks tracks e t
  | edit e =>
    simp only [step]
    split
    · rename_i next accepted
      exact Session.edit_tracks tracks accepted
    · exact tracks
  | overwrite t => exact Session.overwrite_tracks tracks t
  | exchange layer => exact Session.exchange_tracks s layer base
  | pass t wanted cancelled =>
    have passed := Session.pass_tracks tracks t wanted cancelled
    revert passed
    simp only [step]
    cases s.pass t wanted cancelled with
    | mk next result =>
      cases result with
      | none => exact id
      | some result => exact id
  | snapshot => exact tracks

theorem run_tracks {s : Session σ} {base : Text} (tracks : s.Tracks base)
    (commands : List (Command σ)) : (run s base commands).1.Tracks (run s base commands).2 := by
  induction commands generalizing s base with
  | nil => exact tracks
  | cons command rest ih => exact ih (step_tracks tracks command)

-- Whatever is run, the tracked spans lie in the text, sorted and apart, and outside them the text
-- is the one a pass last finished on.
theorem affected_covers_changes (layer : σ) (t : Text) (config : Config)
    (commands : List (Command σ)) :
    let (s, base) := run (Session.start layer t config) t commands
    let spans := s.affected.spans.spans
    spans.Pairwise (fun a b => a.stop < b.start) ∧
      (∀ r ∈ spans, r.start ≤ r.stop ∧ r.stop ≤ s.document.size) ∧
      Patchwork 0 spans base s.text ∧ (spans = [] → base = s.text) := by
  obtain ⟨canonical, patched⟩ := run_tracks (Session.start_tracks layer t config) commands
  refine ⟨canonical.1, ?_, patched, ?_⟩
  · intro r member
    have inside := patched.bounds r member
    rw [Nat.zero_add] at inside
    exact inside.2
  · intro nothing
    rw [nothing] at patched
    exact patched.unchanged

end Queue

end LiveHighlight
