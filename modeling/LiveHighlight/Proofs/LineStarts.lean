import LiveHighlight.Lines
import LiveHighlight.Proofs.Cutting
import Mathlib.Data.List.Sort

-- Where lines start. The scan of a text enters an offset exactly if the two characters beside it
-- say so, and an edit leaves this question open at its two seams only.

namespace LiveHighlight.LineIndex

-- A line starts at an offset of a text, told from the characters on either side.
def StartsAt (t : Text) (n : Nat) : Prop :=
  ∃ left right, t = left ++ right ∧ Text.size left = n ∧
    startsBetween left.getLast? right.head? = true

def StartsBehind (base : Nat) (t : Text) (n : Nat) : Prop :=
  ∃ left right, left ≠ [] ∧ t = left ++ right ∧ base + Text.size left = n ∧
    startsBetween left.getLast? right.head? = true

theorem startsBehind_nil : ¬ StartsBehind base [] n := by
  rintro ⟨left, right, held, whole, -, -⟩
  exact held (List.append_eq_nil_iff.mp whole.symm).1

theorem startsBehind_cons : StartsBehind base (c :: rest) n ↔
    (base + c.utf8Size = n ∧ startsBetween (some c) rest.head? = true) ∨
      StartsBehind (base + c.utf8Size) rest n := by
  constructor
  · rintro ⟨left, right, held, whole, place, starts⟩
    cases left with
    | nil => exact absurd rfl held
    | cons d more =>
      obtain ⟨rfl, rfl⟩ := List.cons.inj whole
      cases more with
      | nil => exact .inl ⟨by simpa using place, by simpa using starts⟩
      | cons e more =>
        refine .inr ⟨e :: more, right, by simp, rfl, ?_, by simpa using starts⟩
        simp only [Text.size_cons] at place ⊢
        omega
  · rintro (⟨place, starts⟩ | ⟨left, right, held, whole, place, starts⟩)
    · exact ⟨[c], rest, by simp, rfl, by simpa using place, by simpa using starts⟩
    · subst whole
      refine ⟨c :: left, right, by simp, rfl, ?_, ?_⟩
      · simp only [Text.size_cons]
        omega
      · cases left with
        | nil => exact absurd rfl held
        | cons d more => simpa using starts

theorem startsBehind_later (starts : StartsBehind base t n) : base < n := by
  obtain ⟨left, right, held, -, place, -⟩ := starts
  have positive := Text.size_pos held
  omega

-- A carriage return and a line feed behind it are taken in one go.
theorem mem_scanned : n ∈ startsBehind base t ↔ StartsBehind base t n := by
  fun_induction startsBehind base t with
  | case1 base => simpa using startsBehind_nil
  | case2 base rest ih =>
    rw [List.mem_cons, ih, startsBehind_cons, startsBehind_cons]
    have one : ('\r').utf8Size = 1 := rfl
    have other : ('\n').utf8Size = 1 := rfl
    simp [startsBetween, one, other, Nat.add_assoc, eq_comm]
  | case3 base c rest unpaired next ends ih =>
    rw [List.mem_cons, ih, startsBehind_cons]
    have starts : startsBetween (some c) rest.head? = true := by
      simp only [Text.isTerminator, Bool.or_eq_true, beq_iff_eq] at ends
      rcases ends with rfl | rfl
      · rfl
      · cases rest with
        | nil => rfl
        | cons d more =>
          have distinct : d ≠ '\n' := fun same => unpaired more rfl (by rw [same])
          simp [startsBetween, distinct]
    simp [starts, next, eq_comm]
  | case4 base c rest _ next goes ih =>
    rw [ih, startsBehind_cons]
    have nothing : startsBetween (some c) rest.head? = false := by
      simp only [Text.isTerminator, Bool.or_eq_true, beq_iff_eq, not_or] at goes
      unfold startsBetween
      split <;> simp_all
    simp [nothing, next]

theorem scanned_sorted (base : Nat) (t : Text) : (startsBehind base t).Pairwise (· < ·) := by
  fun_induction startsBehind base t with
  | case1 => exact .nil
  | case2 base rest ih =>
    refine List.pairwise_cons.mpr ⟨?_, ih⟩
    intro n present
    exact startsBehind_later (mem_scanned.mp present)
  | case3 base c rest _ next _ ih =>
    refine List.pairwise_cons.mpr ⟨?_, ih⟩
    intro n present
    exact startsBehind_later (mem_scanned.mp present)
  | case4 base c rest _ next _ ih => exact ih

theorem startsAt_zero (t : Text) : StartsAt t 0 := ⟨[], t, rfl, rfl, rfl⟩

theorem startsAt_iff : StartsAt t n ↔ n = 0 ∨ StartsBehind 0 t n := by
  constructor
  · rintro ⟨left, right, whole, place, starts⟩
    cases left with
    | nil => exact .inl place.symm
    | cons c more => exact .inr ⟨c :: more, right, by simp, whole, by omega, starts⟩
  · rintro (rfl | ⟨left, right, -, whole, place, starts⟩)
    · exact startsAt_zero t
    · exact ⟨left, right, whole, by omega, starts⟩

theorem mem_ofText : n ∈ (ofText t).starts ↔ StartsAt t n := by
  simp only [ofText, List.mem_cons, mem_scanned, startsAt_iff]

theorem startsAt_within (starts : StartsAt t n) : n ≤ Text.size t := by
  obtain ⟨left, right, rfl, rfl, -⟩ := starts
  rw [Text.size_append]
  exact Nat.le_add_right _ _

theorem ofText_sorted (t : Text) : (ofText t).starts.Pairwise (· < ·) := by
  refine List.pairwise_cons.mpr ⟨?_, scanned_sorted 0 t⟩
  intro n present
  exact startsBehind_later (mem_scanned.mp present)

theorem eq_ofText (sorted : lines.starts.Pairwise (· < ·))
    (exact : ∀ n, n ∈ lines.starts ↔ StartsAt t n) : lines = ofText t := by
  obtain ⟨starts⟩ := lines
  have same := List.Pairwise.eq_of_mem_iff sorted (ofText_sorted t)
    fun n => (exact n).trans mem_ofText.symm
  simp only at same
  rw [same]

-- What is asked of an offset, by where it lies in a text of two parts.

theorem startsAt_seam : StartsAt (a ++ b) (Text.size a) ↔
    startsBetween a.getLast? b.head? = true := by
  constructor
  · rintro ⟨left, right, whole, place, starts⟩
    obtain ⟨rfl, rfl⟩ := Text.halves_of_eq whole place.symm
    exact starts
  · intro starts
    exact ⟨a, b, rfl, rfl, starts⟩

theorem startsAt_before (before : n < Text.size a) (starts : StartsAt (a ++ b) n) (c : Text) :
    StartsAt (a ++ c) n := by
  obtain ⟨left, right, whole, rfl, starts⟩ := starts
  obtain ⟨between, held, rfl, rfl⟩ := Text.halves_of_lt whole.symm before
  refine ⟨left, between ++ c, by simp, rfl, ?_⟩
  cases between with
  | nil => exact absurd rfl held
  | cons d more => simpa using starts

theorem startsAt_behind (behind : Text.size a < n) :
    StartsAt (a ++ b) n ↔ StartsBehind (Text.size a) b n := by
  constructor
  · rintro ⟨left, right, whole, rfl, starts⟩
    obtain ⟨between, held, rfl, rfl⟩ := Text.halves_of_lt whole behind
    refine ⟨between, right, held, rfl, (Text.size_append _ _).symm, ?_⟩
    rwa [List.getLast?_append_of_ne_nil _ held] at starts
  · rintro ⟨left, right, held, rfl, rfl, starts⟩
    refine ⟨a ++ left, right, by simp, Text.size_append _ _, ?_⟩
    rwa [List.getLast?_append_of_ne_nil _ held]

theorem startsBehind_shift (starts : StartsBehind base t n) (other : Nat) :
    StartsBehind other t (n - base + other) := by
  obtain ⟨left, right, held, whole, rfl, starts⟩ := starts
  exact ⟨left, right, held, whole, by omega, starts⟩

theorem startsBehind_front (inside : n < base + Text.size a) :
    StartsBehind base (a ++ b) n ↔ StartsBehind base a n := by
  constructor
  · rintro ⟨left, right, held, whole, rfl, starts⟩
    obtain ⟨between, remains, rfl, rfl⟩ := Text.halves_of_lt whole.symm (by omega)
    refine ⟨left, between, held, rfl, rfl, ?_⟩
    cases between with
    | nil => exact absurd rfl remains
    | cons d more => simpa using starts
  · rintro ⟨left, right, held, rfl, rfl, starts⟩
    refine ⟨left, right ++ b, held, by simp, rfl, ?_⟩
    cases right with
    | nil =>
      simp only [List.append_nil] at inside
      omega
    | cons d more => simpa using starts

end LiveHighlight.LineIndex
