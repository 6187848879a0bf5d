import LiveHighlight.Proofs.Owing

-- What a tracker remembers. Every span that was recorded lies in one tracked span, wherever the
-- edits since then have carried it.

namespace LiveHighlight

namespace Span

instance (s : Span) : Decidable s.Proper := inferInstanceAs (Decidable (s.start ≤ s.stop))

instance (a b : Span) : Decidable (a.Covers b) :=
  inferInstanceAs (Decidable (a.start ≤ b.start ∧ b.stop ≤ a.stop))

end Span

structure Change where
  edit : Edit
  old : Span
  consistent : edit.replaced? = some old

namespace Change

def replacement (c : Change) : Replacement := ⟨c.old, c.edit.edited⟩

theorem aligned (c : Change) : c.replacement.Aligned := by
  obtain ⟨starts, old, new, -⟩ := Edit.replaced?_parts c.consistent
  exact ⟨starts.symm, old, new⟩

def carryAll (changes : List Change) (r : Span) : Span :=
  changes.foldl (fun s c => c.replacement.carry s) r

end Change

namespace Replacement

variable {r : Replacement} {s : Span} {p q : Nat}

inductive Keeps (r : Replacement) : Nat → Nat → Prop where
  | before {p : Nat} (early : p < r.old.start) : Keeps r p p
  | behind {p : Nat} (late : r.old.stop ≤ p) : Keeps r p (p - r.old.stop + r.new.stop)

theorem carry_keeps (aligned : r.Aligned) (keeps : r.Keeps p q) (lower : s.start ≤ p)
    (upper : p < s.stop) : (r.carry s).start ≤ q ∧ q < (r.carry s).stop := by
  obtain ⟨starts, old, new⟩ := aligned
  unfold Span.Proper at old new
  cases keeps with
  | before early =>
    simp only [carry, carryOffset]
    split_ifs <;> omega
  | behind late =>
    simp only [carry, carryOffset]
    split_ifs <;> omega

end Replacement

namespace Width

theorem guarded_same {α : Type} {p : Prop} [Decidable p] {value n : α}
    (found : (if p then some value else none) = some n) : n = value :=
  (Option.some.inj (Option.ite_none_right_eq_some.mp found).2).symm

theorem sum?_same {a b n : Nat} (found : sum? a b = some n) : n = a + b := guarded_same found

theorem difference?_same {a b n : Nat} (found : difference? a b = some n) : n = a - b :=
  guarded_same found

theorem distance?_same {a b n : Int} (found : distance? a b = some n) : n = a - b :=
  guarded_same found

theorem mapM_same {α β : Type} {f : α → Option β} {g : α → β} {l : List α} {m : List β}
    (each : ∀ a b, f a = some b → b = g a) (found : l.mapM f = some m) : m = l.map g := by
  induction l generalizing m with
  | nil =>
    cases Option.some.inj found
    rfl
  | cons a rest ih =>
    simp only [List.mapM_cons, Option.bind_eq_bind, Option.bind_eq_some_iff] at found
    obtain ⟨b, first, others, later, equal⟩ := found
    cases Option.some.inj equal
    rw [List.map_cons, each a b first, ih later]

end Width

namespace Replacement

open Width

variable {r : Replacement} {s t : Span}

theorem carryOffset?_same {inside offset n : Nat}
    (found : r.carryOffset? inside offset = some n) : n = r.carryOffset inside offset := by
  unfold carryOffset? at found
  unfold carryOffset
  split
  · rename_i before
    rw [if_pos before] at found
    exact (Option.some.inj found).symm
  · rename_i inward
    rw [if_neg inward] at found
    split
    · rename_i behind
      rw [if_pos behind] at found
      obtain ⟨rest, less, more⟩ := Option.bind_eq_some_iff.mp found
      rw [sum?_same more, difference?_same less]
    · rename_i short
      rw [if_neg short] at found
      exact (Option.some.inj found).symm

theorem carry?_same (found : r.carry? s = some t) : t = r.carry s := by
  obtain ⟨start, first, rest⟩ := Option.bind_eq_some_iff.mp found
  obtain ⟨stop, second, equal⟩ := Option.bind_eq_some_iff.mp rest
  cases Option.some.inj equal
  rw [carryOffset?_same first, carryOffset?_same second]
  rfl

end Replacement

namespace Affected

variable {a b : Affected} {edited r : Span} {delta : Int} {changes : List Change}

theorem add_change (a : Affected) (c : Change) : a.add c.edit.edited c.edit.delta =
    ⟨(a.spans.carry c.replacement).insert c.edit.edited⟩ := by
  obtain ⟨starts, ordered, -, length⟩ := Edit.replaced?_parts c.consistent
  have old : c.old = ⟨c.edit.edited.start, c.edit.edited.start + c.old.length⟩ := by
    rw [← starts, Span.length, Nat.add_sub_cancel' ordered]
  have before : (signedLength c.edit.edited.length - c.edit.delta).toNat = c.old.length := by
    rw [← length, Int.toNat_natCast]
  rw [add, before, ← old]
  rfl

def addAll (a : Affected) (changes : List Change) : Affected :=
  changes.foldl (fun a c => a.add c.edit.edited c.edit.delta) a

theorem add_own (a : Affected) (c : Change) :
    (a.add c.edit.edited c.edit.delta).spans.Holds c.edit.edited := by
  rw [add_change]
  exact SpanSet.insert_own c.aligned.new

theorem add_carries (proper : r.Proper) (held : a.spans.Holds r) (c : Change) :
    (a.add c.edit.edited c.edit.delta).spans.Holds (c.replacement.carry r) := by
  rw [add_change]
  exact Replacement.carry_holds c.aligned proper held

theorem addAll_carries (proper : r.Proper) (held : a.spans.Holds r) :
    (a.addAll changes).spans.Holds (Change.carryAll changes r) := by
  induction changes generalizing a r with
  | nil => exact held
  | cons c rest ih => exact ih Replacement.carry_proper (add_carries proper held c)

theorem add?_same (found : a.add? edited delta = some b) : b = a.add edited delta := by
  simp only [add?, Option.bind_eq_bind, Option.bind_eq_some_iff] at found
  obtain ⟨before, lengths, stop, old, carried, each, equal⟩ := found
  have same := Width.mapM_same (fun _ _ => Replacement.carry?_same) each
  rw [← Option.some.inj equal, same, Width.sum?_same old, Width.distance?_same lengths]
  rfl

def addAll? (a : Affected) (changes : List Change) : Option Affected :=
  changes.foldlM (fun a c => a.add? c.edit.edited c.edit.delta) a

theorem addAll?_same (found : a.addAll? changes = some b) : b = a.addAll changes := by
  induction changes generalizing a with
  | nil => exact (Option.some.inj found).symm
  | cons c rest ih =>
    simp only [addAll?, List.foldlM_cons, Option.bind_eq_bind, Option.bind_eq_some_iff] at found
    obtain ⟨next, first, later⟩ := found
    cases add?_same first
    exact ih later

theorem only_holds (proper : r.Proper) : (only r).spans.Holds r := SpanSet.insert_own proper

theorem only_reversed (reversed : ¬ r.Proper) : only r = none := by
  have passed : r.stop < r.start := Nat.not_le.mp reversed
  rw [only, SpanSet.ofSpan, SpanSet.insert, if_pos passed]
  rfl

-- What is recorded is an edited span or the span that all else was forgotten for; a reversed one
-- is not recorded. Later edits carry it on one after another.
theorem remembers :
    (∀ (a : Affected) (earlier : List Change) (c : Change) (later : List Change),
      (a.addAll (earlier ++ c :: later)).spans.Holds (Change.carryAll later c.edit.edited)) ∧
    (∀ (r : Span) (changes : List Change),
      (r.Proper → ((only r).addAll changes).spans.Holds (Change.carryAll changes r)) ∧
      (¬ r.Proper → only r = none)) ∧
    (∀ (a b : Affected) (changes : List Change), a.addAll? changes = some b →
      b = a.addAll changes) ∧
    (∀ (r : Replacement) (wider s : Span), r.Aligned → s.Proper → wider.Covers s →
      (r.carry wider).Covers (r.carry s)) ∧
    (∀ (r : Replacement) (s : Span) (p q : Nat), r.Aligned → s.start ≤ p → p < s.stop →
      r.Keeps p q → (r.carry s).start ≤ q ∧ q < (r.carry s).stop) := by
  refine ⟨?_, ?_, ?_, ?_, ?_⟩
  · intro a earlier c later
    rw [addAll, List.foldl_append]
    exact addAll_carries c.aligned.new (add_own _ c)
  · intro r changes
    exact ⟨fun proper => addAll_carries proper (only_holds proper), only_reversed⟩
  · intro a b changes found
    exact addAll?_same found
  · intro r wider s aligned proper covers
    exact Replacement.carry_covers aligned proper covers
  · intro r s p q aligned lower upper keeps
    exact Replacement.carry_keeps aligned keeps lower upper

def burst : List Change := [
  ⟨.replace ⟨2, 4⟩ ['0', '0', '0', '0'], ⟨2, 4⟩, by decide⟩,
  ⟨.delete 7 1, ⟨7, 8⟩, by decide⟩,
  ⟨.delete 3 2, ⟨3, 5⟩, by decide⟩,
  ⟨.insert 1 ['1'], ⟨1, 1⟩, by decide⟩]

def crossing : Replacement := ⟨⟨3, 5⟩, ⟨3, 3⟩⟩

theorem remembers_burst :
    ((only ⟨5, 9⟩).addAll burst).spans.spans = [⟨1, 2⟩, ⟨3, 5⟩, ⟨6, 9⟩] ∧
    (only ⟨5, 9⟩).addAll? burst = some ((only ⟨5, 9⟩).addAll burst) ∧
    ((only ⟨5, 9⟩).addAll burst).spans.Holds ⟨3, 5⟩ ∧
    ((only ⟨5, 9⟩).addAll burst).spans.Holds ⟨6, 9⟩ ∧
    (crossing.carry ⟨2, 6⟩).Covers (crossing.carry ⟨4, 6⟩) ∧
    (crossing.carry ⟨2, 6⟩).start ≤ 3 ∧ 3 < (crossing.carry ⟨2, 6⟩).stop := by
  obtain ⟨edits, invalidated, widths, monotone, bytes⟩ := remembers
  have proper : (⟨5, 9⟩ : Span).Proper := by decide
  have aligned : crossing.Aligned := ⟨rfl, by decide, by decide⟩
  have ran : ((only ⟨5, 9⟩).addAll? burst).isSome := by decide
  obtain ⟨b, found⟩ := Option.isSome_iff_exists.mp ran
  refine ⟨by decide +kernel, ?_, edits _ [] _ burst.tail, (invalidated _ burst).1 proper, ?_, ?_⟩
  · exact found.trans (congrArg some (widths (only ⟨5, 9⟩) b burst found))
  · exact monotone crossing ⟨2, 6⟩ ⟨4, 6⟩ aligned (by decide) (by decide)
  · exact bytes crossing ⟨2, 6⟩ 5 3 aligned (by decide) (by decide) (.behind (by decide))

end Affected

end LiveHighlight
