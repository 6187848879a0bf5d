import LiveHighlight.Proofs.LineStarts
import LiveHighlight.Proofs.PartedRegions
import LiveHighlight.Proofs.Rescan

-- A sweep over whole lines, line by line. When no delimiter spans lines, nothing is carried from
-- one line to the next, so the regions of some lines are those of each line in turn.

namespace LiveHighlight

namespace LineIndex

variable {t : Text} {first last row : Nat}

def bound (t : Text) (row : Nat) : Nat := ((ofText t).lineStart? row).getD (Text.size t)

theorem bound_zero (t : Text) : bound t 0 = 0 := rfl

theorem bound_count (t : Text) : bound t (ofText t).lineCount = Text.size t := by
  simp [bound, lineStart?, lineCount]

theorem bound_start (within : row < (ofText t).lineCount) :
    (ofText t).lineStart? row = some (bound t row) ∧ StartsAt t (bound t row) := by
  obtain ⟨start, found⟩ : ∃ start, (ofText t).lineStart? row = some start :=
    ⟨_, List.getElem?_eq_getElem within⟩
  have same : bound t row = start := by rw [bound, found, Option.getD_some]
  rw [same]
  exact ⟨found, mem_ofText.mp (List.mem_of_getElem? found)⟩

theorem bound_next (within : row < (ofText t).lineCount) : bound t row ≤ bound t (row + 1) := by
  obtain ⟨here, starts⟩ := bound_start within
  by_cases more : row + 1 < (ofText t).lineCount
  · obtain ⟨first, same⟩ := List.getElem?_eq_some_iff.mp here
    obtain ⟨second, same'⟩ := List.getElem?_eq_some_iff.mp (bound_start more).1
    have before : (ofText t).starts[row] < (ofText t).starts[row + 1] :=
      List.pairwise_iff_getElem.mp (ofText_sorted t) row (row + 1) first second
        (Nat.lt_succ_self row)
    rw [same, same'] at before
    exact Nat.le_of_lt before
  · have last : row + 1 = (ofText t).lineCount := by omega
    rw [last, bound_count]
    exact startsAt_within starts

theorem bound_mono (ordered : first ≤ last) (within : last ≤ (ofText t).lineCount) :
    bound t first ≤ bound t last := by
  induction ordered with
  | refl => exact Nat.le_refl _
  | step _ ih => exact Nat.le_trans (ih (by omega)) (bound_next within)

theorem lineSpan?_bound (within : row < (ofText t).lineCount) :
    (ofText t).lineSpan? row (Text.size t) = some ⟨bound t row, bound t (row + 1)⟩ := by
  have forward : bound t row ≤ bound t (row + 1) := bound_next within
  have stop : max (bound t (row + 1)) (bound t row) = bound t (row + 1) := Nat.max_eq_left forward
  rw [lineSpan?, (bound_start within).1, Option.map_some]
  exact congrArg (fun n => some (Span.mk (bound t row) n)) stop

theorem bound_place (within : row ≤ (ofText t).lineCount) :
    bound t row = Text.size t ∨ StartsAt t (bound t row) := by
  rcases Nat.lt_or_ge row (ofText t).lineCount with inside | beyond
  · exact .inr (bound_start inside).2
  · have last : row = (ofText t).lineCount := Nat.le_antisymm within beyond
    exact .inl (by rw [last, bound_count])

theorem bound_cut (within : row ≤ (ofText t).lineCount) :
    ∃ left right, t = left ++ right ∧ Text.size left = bound t row := by
  rcases bound_place within with last | starts
  · exact ⟨t, [], (List.append_nil t).symm, last.symm⟩
  · obtain ⟨left, right, whole, size, -⟩ := starts
    exact ⟨left, right, whole, size⟩

theorem terminator_before {left right : Text} {c : Char}
    (starts : StartsAt ((left ++ [c]) ++ right) (Text.size (left ++ [c]))) :
    Text.isTerminator c = true := by
  obtain ⟨p, q, parts, place, starts⟩ := starts
  obtain ⟨rfl, rfl⟩ := Text.halves_of_eq parts.symm place
  rw [List.getLast?_concat] at starts
  unfold startsBetween at starts
  split at starts
  · simp_all
  · simp_all [Text.isTerminator]
  · simp_all [Text.isTerminator]
  · cases starts

end LineIndex

namespace Window

variable {t : Text} {w : Window} {a b : Nat}

def ofLine? (t : Text) (row : Nat) : Option Window :=
  ((LineIndex.ofText t).lineSpan? row (Text.size t)).bind (of? t)

def ofLines? (t : Text) (first last : Nat) : Option Window := do
  let front ← (LineIndex.ofText t).lineSpan? first (Text.size t)
  let back ← (LineIndex.ofText t).lineSpan? last (Text.size t)
  of? t ⟨front.start, back.stop⟩

theorem of?_exact : of? t ⟨a, b⟩ = some w ↔ ∃ left middle right,
    t = left ++ (middle ++ right) ∧ Text.size left = a ∧ Text.size left + Text.size middle = b ∧
      w = ⟨.between left middle, right⟩ := by
  constructor
  · intro found
    obtain ⟨⟨left, middle, right⟩, parts, rfl⟩ := Option.map_eq_some_iff.mp found
    obtain ⟨whole, start, stop⟩ := Text.split?_exact.mp parts
    exact ⟨left, middle, right, whole, start, stop, rfl⟩
  · rintro ⟨left, middle, right, whole, start, stop, rfl⟩
    have parts : Text.split? t ⟨a, b⟩ = some (left, middle, right) :=
      Text.split?_exact.mpr ⟨whole, start, stop⟩
    rw [of?, parts]
    rfl

theorem of?_bounds {first last : Nat} (ordered : first ≤ last)
    (within : last ≤ (LineIndex.ofText t).lineCount) :
    ∃ w, of? t ⟨LineIndex.bound t first, LineIndex.bound t last⟩ = some w := by
  obtain ⟨left, rest, whole, start⟩ := LineIndex.bound_cut (Nat.le_trans ordered within)
  obtain ⟨front, right, whole', stop⟩ := LineIndex.bound_cut within
  have forward := LineIndex.bound_mono ordered within
  obtain ⟨middle, rfl, rfl⟩ := Text.halves_of_le (whole.symm.trans whole') (by omega)
  rw [Text.size_append] at stop
  exact ⟨_, of?_exact.mpr ⟨left, middle, right, whole, start, stop, rfl⟩⟩

end Window

namespace Rules

namespace Mark

variable {w : Window} {index index' : Nat} {d d' : Delimiter} {m c : Mark} {o o' : Occurrence}
  {needle needle' : Text} {x : Char}

theorem stands_terminated (found : Occurrence.Of w needle o)
    (found' : Occurrence.Of w (x :: needle') o')
    (same : o'.start.offset = w.lineContentStop o.stop) : Text.isTerminator x = true := by
  obtain ⟨u, -, rest, before⟩ := found.reached
  obtain ⟨v, -, rest', before'⟩ := found'.reached
  -- both places cut one text, so what stands behind them is the same
  have halves : u ++ needle ++ (Text.lineContent (o.stop.rest ++ w.behind)).1 ++
      (Text.lineContent (o.stop.rest ++ w.behind)).2 = v ++ (o'.start.rest ++ w.behind) := by
    rw [List.append_assoc, Text.lineContent_parts, ← List.append_assoc, ← List.append_assoc,
      List.append_assoc u, ← found.rest, ← rest, rest']
  have sizes : Text.size (u ++ needle ++ (Text.lineContent (o.stop.rest ++ w.behind)).1) =
      Text.size v := by
    have first := o.start.offset_eq
    have second := o'.start.offset_eq
    have stop := found.stop
    rw [before] at first
    rw [before'] at second
    simp only [Window.lineContentStop] at same
    simp only [Text.size_append, Text.size_reverse] at first second ⊢
    omega
  obtain ⟨-, tail⟩ := Text.halves_of_eq halves sizes
  have dropped := List.head?_dropWhile_not (fun c => !Text.isTerminator c)
    (o.stop.rest ++ w.behind)
  rw [Text.lineContent, List.span_eq_takeWhile_dropWhile] at tail
  dsimp only at tail
  rw [tail, found'.rest] at dropped
  simpa using dropped

theorem Stems.behind (opening : Stems w index d m) (closing : Stems w index' d' c)
    (kept : d.keepsToLine = true) (opens : m.role.opens = true)
    (ordered : m.span.start ≤ c.span.start) : m.span.start < c.span.stop := by
  cases closing with
  | occurrence held found =>
    have stop := found.stop
    have positive := Text.size_pos held
    simp only [ofOccurrence, Occurrence.span] at ordered ⊢
    omega
  | lineEnd held found =>
    refine Nat.lt_of_le_of_ne ordered fun same => ?_
    cases opening with
    | lineEnd => cases opens
    | @occurrence needle' _ o' held' found' _ inLine =>
      obtain ⟨x, needle', rfl⟩ := List.exists_cons_of_ne_nil held'
      have inside := List.all_eq_true.mp (inLine kept opens) x (by simp)
      have ended := stands_terminated found found' same
      simp [ended] at inside

end Mark

namespace Delimiters

variable {l : Delimiters} {w : Window} {t : Text} {a c first last row : Nat}

theorem regions_held (full : ∀ e ∈ l, e.1.Full) (kept : ∀ e ∈ l, e.1.keepsToLine = true) :
    ∀ r ∈ l.regions w, r.2.start < r.2.stop := by
  intro r member
  obtain ⟨found, listed, named⟩ := List.mem_filterMap.mp member
  obtain ⟨m, c, ⟨opening, closing, opens, -, -, ordered, -, rfl⟩⟩ := regionsFrom_marked listed
  obtain ⟨e, -, rfl⟩ := Option.map_eq_some_iff.mp named
  obtain ⟨d, held, -, opened⟩ := Mark.mem_sorted full opening
  obtain ⟨d', -, -, closed⟩ := Mark.mem_sorted full closing
  exact opened.behind closed (kept d held) opens ordered

theorem regions_nowhere (full : ∀ e ∈ l, e.1.Full) (window : Window.of? t ⟨a, a⟩ = some w) :
    l.regions w = [] := by
  apply List.eq_nil_iff_forall_not_mem.mpr
  intro r member
  have within := regions_within full member
  rw [RuleSet.window_span window] at within
  dsimp only at within
  omega

section Lines

variable (full : ∀ e ∈ l, e.1.Full) (kept : ∀ e ∈ l, e.1.keepsToLine = true)
  (single : l.spansLines = false)

include full kept single

theorem regions_join {u v : Window} (within : row ≤ (LineIndex.ofText t).lineCount)
    (front : Window.of? t ⟨a, LineIndex.bound t row⟩ = some u)
    (back : Window.of? t ⟨LineIndex.bound t row, c⟩ = some v) :
    ∃ w, Window.of? t ⟨a, c⟩ = some w ∧ l.regions w = l.regions u ++ l.regions v := by
  obtain ⟨left, x, rest, whole, rfl, stop, rfl⟩ := Window.of?_exact.mp front
  obtain ⟨left', y, right, whole', start, rfl, rfl⟩ := Window.of?_exact.mp back
  have parts : left ++ x ++ rest = left' ++ (y ++ right) := by
    rw [List.append_assoc, ← whole, whole']
  obtain ⟨rfl, rfl⟩ := Text.halves_of_eq parts (by rw [Text.size_append, stop, start])
  have joined : Window.of? t ⟨Text.size left, Text.size (left ++ x) + Text.size y⟩ =
      some ⟨.between left (x ++ y), right⟩ := Window.of?_exact.mpr
    ⟨left, x ++ y, right, by simpa using whole, rfl, by simp only [Text.size_append]; omega, rfl⟩
  refine ⟨_, joined, ?_⟩
  rcases List.eq_nil_or_concat' x with rfl | ⟨line, last, rfl⟩
  · rw [Text.size_nil, Nat.add_zero] at stop
    rw [← stop] at front
    rw [regions_nowhere full front, List.append_nil]
    rfl
  rcases LineIndex.bound_place within with same | starts
  · have spent : y = [] := by
      apply Text.size_eq_zero.mp
      have size := congrArg Text.size whole'
      rw [Text.size_append, Text.size_append, stop, same, Text.size_append] at size
      omega
    rw [spent, Text.size_nil, Nat.add_zero, start] at back
    rw [spent, regions_nowhere full back, List.append_nil, List.append_nil]
    rfl
  · have behind : Cursor.between (left ++ (line ++ [last])) y =
        (Cursor.between left (line ++ [last] ++ y)).past (line ++ [last]) y :=
      Cursor.same_place (List.reverse_append ..) rfl
    have ends : Text.isTerminator last = true := by
      have cut : LineIndex.StartsAt (left ++ line ++ [last] ++ (y ++ right))
          (Text.size (left ++ line ++ [last])) := by
        rw [List.append_assoc left, start, ← whole']
        exact starts
      exact LineIndex.terminator_before cut
    rw [behind]
    exact regions_cut full kept single rfl rfl ends

-- The regions of some lines are those of each line in turn.
theorem regions_lines (ordered : first ≤ last) (within : last ≤ (LineIndex.ofText t).lineCount) :
    ∃ lines : List Window,
      (List.range' first (last - first)).map (Window.ofLine? t) = lines.map some ∧
        ∃ w, Window.of? t ⟨LineIndex.bound t first, LineIndex.bound t last⟩ = some w ∧
          l.regions w = lines.flatMap l.regions := by
  induction ordered using Nat.decreasingInduction with
  | self =>
    obtain ⟨w, window⟩ := Window.of?_bounds (Nat.le_refl last) within
    exact ⟨[], by simp, w, window, regions_nowhere full window⟩
  | of_succ row inside ih =>
    obtain ⟨lines, each, rest, behind, regions⟩ := ih
    have held : row < (LineIndex.ofText t).lineCount := Nat.lt_of_lt_of_le inside within
    obtain ⟨line, window⟩ := Window.of?_bounds (Nat.le_succ row) held
    have own : Window.ofLine? t row = some line := by
      rw [Window.ofLine?, LineIndex.lineSpan?_bound held]
      exact window
    obtain ⟨w, joined, parts⟩ := regions_join full kept single held window behind
    refine ⟨line :: lines, ?_, w, joined, ?_⟩
    · have count : last - row = last - (row + 1) + 1 := by omega
      rw [count, List.range'_succ, List.map_cons, own, each]
      rfl
    · rw [parts, regions, List.flatMap_cons]

theorem regions_filter (ordered : first ≤ last) (within : last ≤ (LineIndex.ofText t).lineCount) :
    ∃ w, Window.of? t ⟨LineIndex.bound t first, LineIndex.bound t last⟩ = some w ∧
      l.regions w = (l.regions (.whole t)).filter fun r =>
        w.span.start ≤ r.2.start && r.2.stop ≤ w.span.stop := by
  have earlier : first ≤ (LineIndex.ofText t).lineCount := Nat.le_trans ordered within
  obtain ⟨u, before⟩ := Window.of?_bounds (Nat.zero_le first) earlier
  obtain ⟨w, window⟩ := Window.of?_bounds ordered within
  obtain ⟨v, behind⟩ := Window.of?_bounds within (Nat.le_refl _)
  obtain ⟨rest, later, parts⟩ := regions_join full kept single within window behind
  obtain ⟨whole, all, parts'⟩ := regions_join full kept single earlier before later
  rw [LineIndex.bound_zero, LineIndex.bound_count] at all
  cases all.symm.trans (RuleSet.window_whole t)
  have above := RuleSet.window_span before
  have lined := RuleSet.window_span window
  have below := RuleSet.window_span behind
  refine ⟨w, window, ?_⟩
  rw [parts', parts, List.filter_append, List.filter_append,
    List.filter_eq_nil_iff.mpr, List.filter_eq_self.mpr, List.filter_eq_nil_iff.mpr,
    List.nil_append, List.append_nil]
  · intro r member
    have held := regions_held full kept r member
    have within := regions_within full member
    rw [below] at within
    rw [lined]
    dsimp only at within
    simp only [Bool.and_eq_true, decide_eq_true_eq]
    omega
  · intro r member
    have within := regions_within full member
    simp only [Bool.and_eq_true, decide_eq_true_eq]
    omega
  · intro r member
    have held := regions_held full kept r member
    have within := regions_within full member
    rw [above] at within
    rw [lined]
    dsimp only at within
    simp only [Bool.and_eq_true, decide_eq_true_eq]
    omega

end Lines

-- When no delimiter spans lines and none holds a terminator, a sweep over the text is a sweep over
-- each of its lines, and a sweep over some lines finds what the one over the text finds there.
theorem regions_by_line (full : ∀ e ∈ l, e.1.Full) (kept : ∀ e ∈ l, e.1.keepsToLine = true)
    (single : l.spansLines = false) :
    (∃ lines : List Window,
      (List.range (LineIndex.ofText t).lineCount).map (Window.ofLine? t) = lines.map some ∧
        l.regions (.whole t) = lines.flatMap l.regions) ∧
      ∀ first last, first ≤ last → last < (LineIndex.ofText t).lineCount →
        ∃ w, Window.ofLines? t first last = some w ∧
          l.regions w = (l.regions (.whole t)).filter fun r =>
            w.span.start ≤ r.2.start && r.2.stop ≤ w.span.stop := by
  refine ⟨?_, fun first last ordered inside => ?_⟩
  · obtain ⟨lines, each, w, window, parts⟩ :=
      regions_lines full kept single (Nat.zero_le (LineIndex.ofText t).lineCount) (Nat.le_refl _)
    rw [LineIndex.bound_zero, LineIndex.bound_count] at window
    cases window.symm.trans (RuleSet.window_whole t)
    rw [Nat.sub_zero, ← List.range_eq_range'] at each
    exact ⟨lines, each, parts⟩
  · obtain ⟨w, window, parts⟩ :=
      regions_filter full kept single (Nat.le_succ_of_le ordered) inside
    refine ⟨w, ?_, parts⟩
    rw [Window.ofLines?, LineIndex.lineSpan?_bound (Nat.lt_of_le_of_lt ordered inside),
      LineIndex.lineSpan?_bound inside]
    exact window

def lineMarks : Delimiters :=
  [(.inline ['#'] false, .comments), (.pair ['"'] ['"'] false, .strings)]

def markedLines : Text := ['"', 'a', '\r', '\n', '"', '\\', '"', '"', '\r', '#', '"', '\n']

theorem regions_by_line_quotes :
    (∃ lines : List Window,
      (List.range 4).map (Window.ofLine? markedLines) = lines.map some ∧
        lines.flatMap lineMarks.regions = [(.strings, ⟨4, 8⟩), (.comments, ⟨9, 11⟩)]) ∧
      ∃ w, Window.ofLines? markedLines 2 3 = some w ∧
        lineMarks.regions w = [(.comments, ⟨9, 11⟩)] := by
  obtain ⟨⟨lines, each, whole⟩, some_lines⟩ := regions_by_line (l := lineMarks) (t := markedLines)
    (by simp [lineMarks, Delimiter.Full]) (by decide) rfl
  obtain ⟨w, window, kept⟩ := some_lines 2 3 (by decide) (by decide)
  refine ⟨⟨lines, each, by rw [← whole]; rfl⟩, w, window, ?_⟩
  cases window
  rw [kept]
  rfl

end Delimiters

end Rules

end LiveHighlight
