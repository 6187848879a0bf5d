import LiveHighlight.Proofs.Points

-- Points and offsets name the same places. Every offset has one point, the order of points is that
-- of the offsets, and a point that keeps to its line names an offset in turn.

namespace LiveHighlight

namespace Point

variable {p q : Point}

instance : LT Point := ⟨fun p q => p.row < q.row ∨ (p.row = q.row ∧ p.column < q.column)⟩

theorem lt_iff : p < q ↔ p.row < q.row ∨ (p.row = q.row ∧ p.column < q.column) := Iff.rfl

instance (p q : Point) : Decidable (p < q) := decidable_of_iff _ lt_iff.symm

theorem not_lt : ¬ p < q ↔ q ≤ p := by
  rw [lt_iff, le_iff]
  omega

theorem le_antisymm (first : p ≤ q) (second : q ≤ p) : p = q := by
  obtain ⟨row, column⟩ := p
  obtain ⟨row', column'⟩ := q
  rw [le_iff] at first second
  rw [Point.mk.injEq]
  dsimp only at first second
  omega

end Point

namespace LineIndex

variable {ix : LineIndex} {p q : Point} {t : Text} {n m row : Nat}

structure Names (ix : LineIndex) (p : Point) (n : Nat) : Prop where
  place : ∃ start, ix.lineStart? p.row = some start ∧ start + p.column = n
  within : ∀ next, ix.lineStart? (p.row + 1) = some next → n < next

theorem lineStart_mono (sorted : ix.starts.Pairwise (· < ·)) {first second i j : Nat}
    (at_first : ix.lineStart? i = some first) (at_second : ix.lineStart? j = some second)
    (rows : i ≤ j) : first ≤ second := by
  obtain ⟨i_lt, rfl⟩ := List.getElem?_eq_some_iff.mp at_first
  obtain ⟨j_lt, rfl⟩ := List.getElem?_eq_some_iff.mp at_second
  rcases Nat.lt_or_eq_of_le rows with less | rfl
  · exact Nat.le_of_lt (List.pairwise_iff_getElem.mp sorted i j i_lt j_lt less)
  · exact Nat.le_refl _

theorem Names.earlier (sorted : ix.starts.Pairwise (· < ·)) (first : ix.Names p n)
    (second : ix.Names q m) (rows : p.row < q.row) : n < m := by
  obtain ⟨start, at_q, rfl⟩ := second.place
  have inside : p.row + 1 < ix.starts.length := by
    have reached := (List.getElem?_eq_some_iff.mp at_q).1
    omega
  have next : ix.lineStart? (p.row + 1) = some ix.starts[p.row + 1] :=
    List.getElem?_eq_getElem inside
  have before := first.within _ next
  have behind := lineStart_mono sorted next at_q rows
  omega

theorem Names.same_row (first : ix.Names p n) (second : ix.Names q m) (row : p.row = q.row) :
    n < m ↔ p.column < q.column := by
  obtain ⟨start, at_p, rfl⟩ := first.place
  obtain ⟨start', at_q, rfl⟩ := second.place
  rw [row, at_q] at at_p
  cases at_p
  omega

theorem Names.order (sorted : ix.starts.Pairwise (· < ·)) (first : ix.Names p n)
    (second : ix.Names q m) : n < m ↔ p < q := by
  rw [Point.lt_iff]
  rcases Nat.lt_trichotomy p.row q.row with less | same | more
  · exact iff_of_true (first.earlier sorted second less) (.inl less)
  · rw [first.same_row second same]
    omega
  · have later := second.earlier sorted first more
    omega

theorem Names.unique (sorted : ix.starts.Pairwise (· < ·)) (first : ix.Names p n)
    (second : ix.Names q n) : p = q := by
  have less := (first.order sorted second).not.mp (Nat.lt_irrefl n)
  have more := (second.order sorted first).not.mp (Nat.lt_irrefl n)
  exact Point.le_antisymm (Point.not_lt.mp more) (Point.not_lt.mp less)

theorem point?_parts (found : ix.point? n = some p) : ∃ front start behind,
    ix.starts = front ++ start :: behind ∧ p = ⟨front.length, n - start⟩ ∧ start ≤ n ∧
      ∀ next, behind.head? = some next → n < next := by
  obtain ⟨start, last, rfl⟩ := Option.map_eq_some_iff.mp found
  obtain ⟨front, reached⟩ := List.getLast?_eq_some_iff.mp last
  have parts := List.takeWhile_append_dropWhile (p := fun s => decide (s ≤ n)) (l := ix.starts)
  have early := List.mem_takeWhile_imp (List.mem_of_getLast? last)
  rw [reached, List.append_assoc, List.singleton_append] at parts
  refine ⟨front, start, _, parts.symm, by simp [reached], by simpa using early, fun next at_next => ?_⟩
  have beyond := List.head?_dropWhile_not (fun s => decide (s ≤ n)) ix.starts
  rw [at_next] at beyond
  simpa using beyond

theorem names_of_point? (found : ix.point? n = some p) : ix.Names p n := by
  obtain ⟨front, start, behind, parts, rfl, reached, beyond⟩ := point?_parts found
  refine ⟨⟨start, ?_, Nat.add_sub_cancel' reached⟩, fun next at_next => beyond next ?_⟩
  · simp [lineStart?, parts]
  · rw [List.head?_eq_getElem?]
    simpa [lineStart?, parts, List.getElem?_append_right] using at_next

theorem point?_exists (first : ix.starts.head? = some 0) (n : Nat) :
    ∃ p, ix.point? n = some p := by
  obtain ⟨rest, starts⟩ := List.head?_eq_some_iff.mp first
  simp only [point?, starts, List.takeWhile_cons, Nat.zero_le, decide_true, if_true,
    List.getLast?_cons, Option.map_some]
  exact ⟨_, rfl⟩

theorem point?_names (first : ix.starts.head? = some 0) (sorted : ix.starts.Pairwise (· < ·)) :
    ix.point? n = some p ↔ ix.Names p n := by
  refine ⟨names_of_point?, fun names => ?_⟩
  obtain ⟨q, found⟩ := point?_exists first n
  rw [found, (names_of_point? found).unique sorted names]

theorem Names.offset? (names : ix.Names p n) (fits : n < offsetLimit) :
    ix.offset? p = some n := by
  obtain ⟨start, at_row, rfl⟩ := names.place
  rw [LineIndex.offset?, at_row, Option.map_some, Nat.min_eq_left (by omega)]

theorem offset?_none : ix.offset? p = none ↔ ix.lineCount ≤ p.row := by
  rw [offset?, Option.map_eq_none_iff, lineStart?, List.getElem?_eq_none_iff, lineCount]

-- On the last line the sum must stay below the greatest offset.
structure Kept (ix : LineIndex) (p : Point) : Prop where
  row : p.row < ix.lineCount
  inside : ∀ start next, ix.lineStart? p.row = some start →
    ix.lineStart? (p.row + 1) = some next → start + p.column < next
  last : ∀ start, ix.lineStart? p.row = some start → ix.lineStart? (p.row + 1) = none →
    start + p.column < offsetLimit

theorem Kept.names (kept : ix.Kept p) (small : ∀ s ∈ ix.starts, s < offsetLimit) :
    ∃ n, ix.Names p n ∧ n < offsetLimit := by
  obtain ⟨start, at_row⟩ : ∃ start, ix.lineStart? p.row = some start :=
    ⟨_, List.getElem?_eq_getElem kept.row⟩
  refine ⟨start + p.column, ⟨⟨start, at_row, rfl⟩, fun next => ?_⟩, ?_⟩
  · exact kept.inside _ next at_row
  · cases at_next : ix.lineStart? (p.row + 1) with
    | none => exact kept.last _ at_row at_next
    | some next =>
      have before := kept.inside _ next at_row at_next
      have bound := small next (List.mem_of_getElem? at_next)
      omega

end LineIndex

namespace Document

-- After any edits the index names every offset by one point and gives the offset back for it, and
-- keeps the order of the offsets. Only a row behind the last one names nothing.
theorem points_invert (t : Text) (edits : List Edit) (held : ∀ x ∈ edits, x.Storable)
    (fits : Text.size (run (.ofText t) edits).text < offsetLimit) :
    (∀ n, ∃ p, (run (.ofText t) edits).lines.point? n = some p ∧
      (n < offsetLimit → (run (.ofText t) edits).lines.offset? p = some n)) ∧
    (∀ n m p q, (run (.ofText t) edits).lines.point? n = some p →
      (run (.ofText t) edits).lines.point? m = some q → (n < m ↔ p < q)) ∧
    (∀ p, (run (.ofText t) edits).lines.Kept p →
      ∃ n, (run (.ofText t) edits).lines.offset? p = some n ∧
        (run (.ofText t) edits).lines.point? n = some p) ∧
    ∀ p, (run (.ofText t) edits).lines.offset? p = none ↔
      (run (.ofText t) edits).lines.lineCount ≤ p.row := by
  have agrees : (run (.ofText t) edits).lines = .ofText (run (.ofText t) edits).text :=
    run_agrees rfl held
  generalize run (.ofText t) edits = d at agrees fits
  have first : d.lines.starts.head? = some 0 := by rw [agrees]; rfl
  have sorted : d.lines.starts.Pairwise (· < ·) := by
    rw [agrees]
    exact LineIndex.ofText_sorted d.text
  have small : ∀ s ∈ d.lines.starts, s < offsetLimit := by
    intro s member
    rw [agrees, LineIndex.mem_ofText] at member
    exact Nat.lt_of_le_of_lt (LineIndex.startsAt_within member) fits
  refine ⟨fun n => ?_, fun n m p q at_n at_m => ?_, fun p kept => ?_, fun p => ?_⟩
  · obtain ⟨p, found⟩ := LineIndex.point?_exists first n
    exact ⟨p, found, (LineIndex.names_of_point? found).offset?⟩
  · exact (LineIndex.names_of_point? at_n).order sorted (LineIndex.names_of_point? at_m)
  · obtain ⟨n, names, bound⟩ := kept.names small
    exact ⟨n, names.offset? bound, (LineIndex.point?_names first sorted).mpr names⟩
  · exact LineIndex.offset?_none

-- Two terminators become one; the place between the two characters of it is on the line they end.
theorem points_invert_joined :
    (∀ x ∈ [Edit.delete 2 1], x.Storable) ∧
      Text.size (run (.ofText ['a', '\r', 'x', '\n', 'b']) [.delete 2 1]).text < offsetLimit ∧
      (∃ n, (run (.ofText ['a', '\r', 'x', '\n', 'b']) [.delete 2 1]).lines.offset? ⟨0, 2⟩ =
          some n ∧
        (run (.ofText ['a', '\r', 'x', '\n', 'b']) [.delete 2 1]).lines.point? n =
          some ⟨0, 2⟩) ∧
      ((7 < 9 ↔ (⟨1, 4⟩ : Point) < ⟨1, 6⟩)) := by
  have held : ∀ x ∈ [Edit.delete 2 1], x.Storable := by
    intro x present
    cases List.mem_singleton.mp present
    exact (by decide : 0 < 0x8000000000000000)
  have after : run (.ofText ['a', '\r', 'x', '\n', 'b']) [.delete 2 1] =
      ⟨['a', '\r', '\n', 'b'], ⟨[0, 3]⟩⟩ := by
    decide +kernel
  have fits : Text.size (run (.ofText ['a', '\r', 'x', '\n', 'b']) [.delete 2 1]).text <
      offsetLimit := by
    rw [after]
    decide
  obtain ⟨-, order, back, -⟩ := points_invert ['a', '\r', 'x', '\n', 'b'] _ held fits
  refine ⟨held, fits, back ⟨0, 2⟩ ?_, order 7 9 _ _ ?_ ?_⟩
  · rw [after]
    exact ⟨by decide, by simp [LineIndex.lineStart?], by simp [LineIndex.lineStart?]⟩
  · rw [after]
    decide
  · rw [after]
    decide

end Document

end LiveHighlight
