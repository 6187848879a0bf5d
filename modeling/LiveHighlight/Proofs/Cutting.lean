import Mathlib.Data.List.TakeDrop
import Mathlib.Data.List.TakeWhile
import LiveHighlight.Text

-- Texts and the offsets at which they can be cut. Every offset that a text can be cut at belongs
-- to one way of writing the text as two halves.

namespace LiveHighlight.Text

@[simp] theorem size_nil : size [] = 0 := rfl

@[simp] theorem size_cons : size (c :: t) = c.utf8Size + size t := rfl

theorem size_eq_zero : size t = 0 ↔ t = [] := by
  cases t with
  | nil => simp
  | cons c rest =>
    have positive := c.utf8Size_pos
    simp only [size_cons, reduceCtorEq, iff_false]
    omega

theorem size_pos (held : t ≠ []) : 0 < size t :=
  Nat.pos_of_ne_zero fun zero => held (size_eq_zero.mp zero)

theorem terminator_size (ends : isTerminator c = true) : c.utf8Size = 1 := by
  simp only [isTerminator, Bool.or_eq_true, beq_iff_eq] at ends
  rcases ends with rfl | rfl <;> rfl

theorem halves_of_le (same : a ++ b = c ++ d) (shorter : size a ≤ size c) :
    ∃ between, c = a ++ between ∧ b = between ++ d := by
  rcases List.append_eq_append_iff.mp same with ⟨between, first, second⟩ | ⟨between, first, second⟩
  · exact ⟨between, first, second⟩
  · have nothing : between = [] := by
      rw [first, size_append] at shorter
      exact size_eq_zero.mp (by omega)
    subst nothing
    exact ⟨[], by simpa using first.symm, by simpa using second.symm⟩

theorem halves_of_lt (same : a ++ b = c ++ d) (shorter : size a < size c) :
    ∃ between, between ≠ [] ∧ c = a ++ between ∧ b = between ++ d := by
  obtain ⟨between, first, second⟩ := halves_of_le same (Nat.le_of_lt shorter)
  refine ⟨between, ?_, first, second⟩
  intro nothing
  subst nothing
  rw [first, List.append_nil] at shorter
  exact Nat.lt_irrefl _ shorter

theorem halves_of_eq (same : a ++ b = c ++ d) (equal : size a = size c) : a = c ∧ b = d := by
  obtain ⟨between, first, second⟩ := halves_of_le same (Nat.le_of_eq equal)
  have nothing : between = [] := by
    rw [first, size_append] at equal
    exact size_eq_zero.mp (by omega)
  subst nothing
  exact ⟨by simpa using first.symm, by simpa using second⟩

theorem cut?_append (a b : Text) : cut? (a ++ b) (size a) = some (a, b) := by
  induction a with
  | nil => simp [cut?]
  | cons c rest ih =>
    obtain ⟨n, equal⟩ : ∃ n, size (c :: rest) = n + 1 :=
      Nat.exists_eq_succ_of_ne_zero (Nat.pos_iff_ne_zero.mp (size_pos (by simp)))
    have left : n + 1 - c.utf8Size = size rest := by
      rw [← equal, size_cons]
      omega
    have fits : c.utf8Size ≤ n + 1 := by
      rw [← equal, size_cons]
      omega
    simp [equal, cut?, fits, left, ih]

theorem cut?_parts (cut : cut? t n = some (a, b)) : t = a ++ b ∧ size a = n := by
  induction t generalizing n a b with
  | nil =>
    cases n with
    | zero => simp_all [cut?]
    | succ n => simp [cut?] at cut
  | cons c rest ih =>
    cases n with
    | zero => simp_all [cut?]
    | succ n =>
      simp only [cut?] at cut
      split at cut
      · rename_i fits
        obtain ⟨⟨x, y⟩, tail, equal⟩ := Option.map_eq_some_iff.mp cut
        obtain ⟨parts, length⟩ := ih tail
        cases equal
        refine ⟨by simp [parts], ?_⟩
        simp only [size_cons, length]
        omega
      · cases cut

theorem split?_exact : split? t s = some (left, middle, right) ↔
    t = left ++ (middle ++ right) ∧ size left = s.start ∧ size left + size middle = s.stop := by
  constructor
  · intro parts
    unfold split? at parts
    split at parts
    · rename_i ordered
      split at parts
      · cases parts
      · rename_i first
        split at parts
        · cases parts
        · rename_i second
          cases Option.some.inj parts
          obtain ⟨whole, start⟩ := cut?_parts first
          obtain ⟨tail, length⟩ := cut?_parts second
          exact ⟨by rw [whole, tail], start, by omega⟩
    · cases parts
  · rintro ⟨rfl, start, stop⟩
    have ordered : s.start ≤ s.stop := by omega
    have length : s.stop - s.start = size middle := by omega
    have first := cut?_append left (middle ++ right)
    rw [start] at first
    simp [split?, ordered, first, length, cut?_append]

theorem lineContent_parts (t : Text) : (lineContent t).1 ++ (lineContent t).2 = t := by
  rw [lineContent, List.span_eq_takeWhile_dropWhile]
  exact List.takeWhile_append_dropWhile

theorem lineContent_append (ends : (lineContent t).2 ≠ []) (rest : Text) :
    lineContent (t ++ rest) = ((lineContent t).1, (lineContent t).2 ++ rest) := by
  unfold lineContent at ends ⊢
  rw [List.span_eq_takeWhile_dropWhile] at ends ⊢
  rw [List.span_eq_takeWhile_dropWhile, List.takeWhile_append, List.dropWhile_append]
  have some_left : (t.dropWhile fun c => !isTerminator c).isEmpty = false := by
    simpa using ends
  have fewer : ¬ (t.takeWhile fun c => !isTerminator c).length = t.length := by
    intro all
    have parts := congrArg List.length
      (List.takeWhile_append_dropWhile (p := fun c => !isTerminator c) (l := t))
    rw [List.length_append] at parts
    dsimp only at ends
    exact ends (List.eq_nil_of_length_eq_zero (by omega))
  simp [some_left, fewer]

theorem lineContent_ends (ends : isTerminator x = true) (member : x ∈ t) :
    (lineContent t).2 ≠ [] := by
  intro nothing
  have parts := lineContent_parts t
  rw [nothing, List.append_nil] at parts
  rw [← parts, lineContent, List.span_eq_takeWhile_dropWhile] at member
  have within := List.mem_takeWhile_imp member
  simp [ends] at within

end LiveHighlight.Text
