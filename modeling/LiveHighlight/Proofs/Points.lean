import Mathlib.Data.Finset.Lattice.Fold
import Mathlib.Data.Finset.Range
import Mathlib.Order.Lattice.Nat
import LiveHighlight.Proofs.EditedLines

-- Points, counted off the terminators of a text. Those told of an edit are in order unless it takes
-- away all that parts a carriage return from a line feed.

namespace LiveHighlight

namespace Point

variable {p q r : Point}

instance : LE Point := ⟨fun p q => p.row < q.row ∨ (p.row = q.row ∧ p.column ≤ q.column)⟩

theorem le_iff : p ≤ q ↔ p.row < q.row ∨ (p.row = q.row ∧ p.column ≤ q.column) := Iff.rfl

instance (p q : Point) : Decidable (p ≤ q) := decidable_of_iff _ le_iff.symm

theorem le_trans (first : p ≤ q) (second : q ≤ r) : p ≤ r := by
  rw [le_iff] at first second ⊢
  omega

end Point

namespace Text

variable {t left right a b : Text} {n m : Nat}

-- One terminator of a text, between what stands before and behind it.
inductive Terminator : Text → Text → Text → Prop where
  | feed {left right : Text} (single : left.getLast? ≠ some '\r') : Terminator left ['\n'] right
  | pair {left right : Text} : Terminator left ['\r', '\n'] right
  | carriage {left right : Text} (single : right.head? ≠ some '\n') : Terminator left ['\r'] right

def EndsAt (t : Text) (n : Nat) : Prop :=
  ∃ left mark right, t = left ++ (mark ++ right) ∧ size left + size mark = n ∧
    Terminator left mark right

theorem endsAt_iff : EndsAt t n ↔ LineIndex.StartsBehind 0 t n := by
  constructor
  · rintro ⟨left, mark, right, rfl, rfl, terminator⟩
    refine ⟨left ++ mark, right, ?_, by simp, by rw [size_append, Nat.zero_add], ?_⟩
    · cases terminator <;> simp
    · cases terminator with
      | feed => simp [LineIndex.startsBetween]
      | pair => simp [LineIndex.startsBetween]
      | carriage single => simpa [LineIndex.startsBetween] using single
  · rintro ⟨left, right, held, rfl, rfl, starts⟩
    obtain ⟨front, c, rfl⟩ := (List.eq_nil_or_concat left).resolve_left held
    rw [List.concat_eq_append] at starts ⊢
    rw [List.getLast?_concat] at starts
    rw [Nat.zero_add, size_append]
    unfold LineIndex.startsBetween at starts
    split at starts
    · simp_all
    · rename_i same
      cases same
      by_cases single : front.getLast? = some '\r'
      · obtain ⟨before, rfl⟩ := List.getLast?_eq_some_iff.mp single
        exact ⟨before, ['\r', '\n'], right, by simp, by simp [size_append, Nat.add_assoc], .pair⟩
      · exact ⟨front, ['\n'], right, by simp, rfl, .feed single⟩
    · rename_i same
      cases same
      exact ⟨front, ['\r'], right, by simp, rfl, .carriage (by simpa using starts)⟩
    · cases starts

instance (t : Text) (n : Nat) : Decidable (EndsAt t n) :=
  decidable_of_iff _ (LineIndex.mem_scanned.trans endsAt_iff.symm)

-- Where terminators end that end at or before an offset. No two terminators end at one place.
def endsUpTo (t : Text) (n : Nat) : Finset Nat := (Finset.range (n + 1)).filter (EndsAt t)

theorem mem_endsUpTo : m ∈ endsUpTo t n ↔ m ≤ n ∧ EndsAt t m := by
  rw [endsUpTo, Finset.mem_filter, Finset.mem_range, Nat.lt_succ_iff]

-- How many terminators end at or before an offset, and how far behind the last of them it lies.
def pointOf (t : Text) (n : Nat) : Point := ⟨(endsUpTo t n).card, n - (endsUpTo t n).sup id⟩

end Text

namespace LineIndex

variable {t : Text} {starts : List Nat} {s : Finset Nat} {n m : Nat}

theorem mem_reached (sorted : starts.Pairwise (· < ·)) :
    m ∈ starts.takeWhile (· ≤ n) ↔ m ∈ starts ∧ m ≤ n := by
  induction starts with
  | nil => simp
  | cons s rest ih =>
    obtain ⟨first, others⟩ := List.pairwise_cons.mp sorted
    rw [List.takeWhile_cons]
    split
    · rename_i early
      rw [List.mem_cons, List.mem_cons, ih others, or_and_right]
      simp only [decide_eq_true_eq] at early
      constructor
      · rintro (rfl | later)
        · exact .inl ⟨rfl, early⟩
        · exact .inr later
      · rintro (⟨rfl, -⟩ | later)
        · exact .inl rfl
        · exact .inr later
    · rename_i late
      simp only [decide_eq_true_eq, Nat.not_le] at late
      constructor
      · simp
      · rintro ⟨member, within⟩
        rcases List.mem_cons.mp member with rfl | later
        · omega
        · have behind := first m later
          omega

theorem sup_last (sorted : starts.Pairwise (· < ·)) :
    starts.toFinset.sup id = starts.getLast?.getD 0 := by
  cases ends : starts.getLast? with
  | none => simp [List.getLast?_eq_none_iff.mp ends]
  | some last =>
    obtain ⟨front, rfl⟩ := List.getLast?_eq_some_iff.mp ends
    apply Nat.le_antisymm
    · apply Finset.sup_le
      intro n member
      rcases List.mem_append.mp (List.mem_toFinset.mp member) with first | own
      · exact Nat.le_of_lt ((List.pairwise_append.mp sorted).2.2 n first last (by simp))
      · exact Nat.le_of_eq (List.mem_singleton.mp own)
    · exact Finset.le_sup (f := id) (by simp)

-- The index of a text tells the point of every offset as it is counted off the terminators.
theorem point?_exact (t : Text) (n : Nat) : (ofText t).point? n = some (Text.pointOf t n) := by
  have reached : (ofText t).starts.takeWhile (· ≤ n) =
      0 :: (startsBehind 0 t).takeWhile (· ≤ n) := by
    simp [ofText]
  have sorted : ((startsBehind 0 t).takeWhile (· ≤ n)).Pairwise (· < ·) :=
    (scanned_sorted 0 t).sublist (List.takeWhile_sublist _)
  have ends : Text.endsUpTo t n = ((startsBehind 0 t).takeWhile (· ≤ n)).toFinset := by
    ext m
    rw [List.mem_toFinset, mem_reached (scanned_sorted 0 t), mem_scanned, ← Text.endsAt_iff,
      Text.mem_endsUpTo, and_comm]
  have count : (Text.endsUpTo t n).card = ((startsBehind 0 t).takeWhile (· ≤ n)).length := by
    rw [ends]
    exact List.toFinset_card_of_nodup (sorted.imp Nat.ne_of_lt)
  have last : (Text.endsUpTo t n).sup id =
      ((startsBehind 0 t).takeWhile (· ≤ n)).getLast?.getD 0 := by
    rw [ends]
    exact sup_last sorted
  simp only [point?, reached, List.getLast?_cons, Option.map_some, Text.pointOf, count, last]
  rfl

end LineIndex

namespace Text

variable {left a b : Text} {n : Nat}

-- What ends before the end of a first part is the same whatever follows, and whether something
-- ends right there is decided by the two characters beside it.

theorem endsAt_front (inside : n < size left) : EndsAt (left ++ a) n ↔ EndsAt (left ++ b) n := by
  rw [endsAt_iff, endsAt_iff, LineIndex.startsBehind_front (by omega),
    LineIndex.startsBehind_front (by omega)]

theorem endsAt_seam : EndsAt (left ++ a) (size left) ↔
    left ≠ [] ∧ LineIndex.startsBetween left.getLast? a.head? = true := by
  rw [endsAt_iff]
  constructor
  · rintro ⟨front, rest, held, whole, place, starts⟩
    obtain ⟨rfl, rfl⟩ := halves_of_eq whole (by omega)
    exact ⟨held, starts⟩
  · rintro ⟨held, starts⟩
    exact ⟨left, a, held, rfl, Nat.zero_add _, starts⟩

theorem ends_same (other : n ≠ size left) : n ∈ endsUpTo (left ++ a) (size left) ↔
    n ∈ endsUpTo (left ++ b) (size left) := by
  rw [mem_endsUpTo, mem_endsUpTo]
  exact and_congr_right fun within => endsAt_front (by omega)

theorem ends_kept (kept : EndsAt (left ++ a) (size left) → EndsAt (left ++ b) (size left)) :
    endsUpTo (left ++ a) (size left) ⊆ endsUpTo (left ++ b) (size left) := by
  intro n member
  by_cases seam : n = size left
  · subst seam
    exact mem_endsUpTo.mpr ⟨Nat.le_refl _, kept (mem_endsUpTo.mp member).2⟩
  · exact (ends_same seam).mp member

theorem pointOf_joined (ends : EndsAt (left ++ a) (size left))
    (joined : ¬ EndsAt (left ++ b) (size left)) :
    pointOf (left ++ a) (size left) = ⟨(pointOf (left ++ b) (size left)).row + 1, 0⟩ := by
  have own : size left ∈ endsUpTo (left ++ a) (size left) :=
    mem_endsUpTo.mpr ⟨Nat.le_refl _, ends⟩
  have fresh : size left ∉ endsUpTo (left ++ b) (size left) :=
    fun member => joined (mem_endsUpTo.mp member).2
  have whole : endsUpTo (left ++ a) (size left) =
      insert (size left) (endsUpTo (left ++ b) (size left)) := by
    ext n
    rw [Finset.mem_insert]
    by_cases seam : n = size left
    · simp [seam, own]
    · simp only [seam, false_or]
      exact ends_same seam
  have reached : size left ≤ (endsUpTo (left ++ a) (size left)).sup id :=
    Finset.le_sup (f := id) own
  have count : (endsUpTo (left ++ a) (size left)).card =
      (endsUpTo (left ++ b) (size left)).card + 1 := by
    rw [whole, Finset.card_insert_of_notMem fresh]
  rw [pointOf, Point.mk.injEq]
  exact ⟨count, Nat.sub_eq_zero_of_le reached⟩

end Text

namespace Edit

variable {e : Edit} {left old inserted right : Text}

-- All that stands between a carriage return and a line feed goes, and nothing comes in.
structure Joining (left old inserted right : Text) : Prop where
  nothing : inserted = []
  before : left.getLast? = some '\r'
  parted : (old ++ right).head? ≠ some '\n'
  behind : right.head? = some '\n'

theorem Joining.parts (joining : Joining left old inserted right) :
    Text.EndsAt (left ++ (old ++ right)) (Text.size left) ∧
      ¬ Text.EndsAt (left ++ (inserted ++ right)) (Text.size left) := by
  obtain ⟨rfl, before, parted, behind⟩ := joining
  have held : left ≠ [] := by
    intro nothing
    simp [nothing] at before
  rw [Text.endsAt_seam, Text.endsAt_seam, before, List.nil_append, behind]
  refine ⟨⟨held, by simpa [LineIndex.startsBetween] using parted⟩, ?_⟩
  simp [LineIndex.startsBetween]

end Edit

namespace Document

variable {d next : Document} {e : Edit} {splice : Splice}

theorem takes_points (valid : d.InAgreement) (fits : e.Storable)
    (taken : Takes d e next splice) :
    splice.startPoint = Text.pointOf d.text splice.start ∧
      splice.oldStopPoint = Text.pointOf d.text splice.oldStop ∧
      splice.newStopPoint = Text.pointOf next.text splice.newStop := by
  have agreed : next.lines = .ofText next.text := takes_agrees valid fits taken
  obtain ⟨text, lines⟩ := d
  change lines = .ofText text at valid
  subst valid
  cases taken with
  | splice whole range edited first second third =>
    dsimp only at agreed first second
    rw [agreed, LineIndex.point?_exact] at third
    rw [LineIndex.point?_exact] at first second
    exact ⟨(Option.some.inj first).symm, (Option.some.inj second).symm,
      (Option.some.inj third).symm⟩

-- What is told of an edit after any run are points of the two texts, counted off their terminators;
-- of the run that led there nothing but the text counts.
theorem splice_points (t : Text) (edits : List Edit) (e : Edit)
    (held : ∀ x ∈ edits, x.Storable) (fits : e.Storable) :
    (run (.ofText t) edits).edit e = (ofText (run (.ofText t) edits).text).edit e ∧
      ∀ next splice, (run (.ofText t) edits).edit e = .ok (next, splice) →
        splice.startPoint = Text.pointOf (run (.ofText t) edits).text splice.start ∧
          splice.oldStopPoint = Text.pointOf (run (.ofText t) edits).text splice.oldStop ∧
          splice.newStopPoint = Text.pointOf next.text splice.newStop := by
  have agrees : (run (.ofText t) edits).InAgreement := run_agrees rfl held
  generalize run (.ofText t) edits = d at agrees
  refine ⟨?_, fun next splice accepted => takes_points agrees fits (edit_exact.mp accepted)⟩
  obtain ⟨text, lines⟩ := d
  change lines = .ofText text at agrees
  rw [agrees]
  rfl

theorem splice_points_joined :
    (∀ x ∈ [Edit.insert 3 ['\n']], x.Storable) ∧ (Edit.insert 2 ['\n']).Storable ∧
      ∃ next splice,
        (run (.ofText ['a', '\r', 'b']) [.insert 3 ['\n']]).edit (.insert 2 ['\n']) =
          .ok (next, splice) ∧
        splice.newStop = 3 ∧ splice.newStopPoint = ⟨1, 0⟩ ∧
        Text.pointOf ['a', '\r', '\n', 'b', '\n'] 3 = ⟨1, 0⟩ := by
  have held : ∀ x ∈ [Edit.insert 3 ['\n']], x.Storable := by
    intro x present
    cases List.mem_singleton.mp present
    exact (by decide : 1 < 0x8000000000000000)
  have fits : (Edit.insert 2 ['\n']).Storable := (by decide : 1 < 0x8000000000000000)
  have accepted : (run (.ofText ['a', '\r', 'b']) [.insert 3 ['\n']]).edit (.insert 2 ['\n']) =
      .ok (⟨['a', '\r', '\n', 'b', '\n'], ⟨[0, 3, 5]⟩⟩,
        ⟨2, 2, 3, ⟨1, 0⟩, ⟨1, 0⟩, ⟨1, 0⟩⟩) := by
    decide +kernel
  obtain ⟨-, points⟩ := splice_points ['a', '\r', 'b'] _ _ held fits
  obtain ⟨-, -, newStop⟩ := points _ _ accepted
  exact ⟨held, fits, _, _, accepted, rfl, rfl, newStop.symm⟩

end Document

end LiveHighlight
