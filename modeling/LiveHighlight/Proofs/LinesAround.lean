import LiveHighlight.Proofs.LineByLine
import LiveHighlight.Proofs.PointNames
import LiveHighlight.Rules.RuleLayer

-- The lines around a span against the lines of the index. The start is looked for behind terminator
-- characters, which differs between a carriage return and the line feed that goes with it.

namespace LiveHighlight

theorem LineIndex.startsBetween_some {x : Char} {behind : Option Char} :
    startsBetween (some x) behind = true ↔
      Text.isTerminator x = true ∧ ¬ (x = '\r' ∧ behind = some '\n') := by
  by_cases feed : x = '\n'
  · subst feed
    simp [startsBetween, Text.isTerminator]
  · by_cases carriage : x = '\r'
    · subst carriage
      simp [startsBetween, Text.isTerminator]
    · simp [startsBetween, Text.isTerminator, feed, carriage]

namespace Text

variable {left right : Text} {n : Nat}

-- Between a carriage return and a line feed, which end one line together.
def InPair (t : Text) (n : Nat) : Prop :=
  ∃ left right, t = left ++ right ∧ size left = n ∧ left.getLast? = some '\r' ∧
    right.head? = some '\n'

theorem inPair_seam : InPair (left ++ right) (size left) ↔
    left.getLast? = some '\r' ∧ right.head? = some '\n' := by
  constructor
  · rintro ⟨front, behind, whole, place, ends⟩
    obtain ⟨rfl, rfl⟩ := halves_of_eq whole place.symm
    exact ends
  · intro ends
    exact ⟨left, right, rfl, rfl, ends⟩

theorem starts_or_inPair {x : Char} (ends : isTerminator x = true) :
    LineIndex.StartsAt (left ++ [x] ++ right) (size (left ++ [x])) ∨
      InPair (left ++ [x] ++ right) (size (left ++ [x])) := by
  rw [LineIndex.startsAt_seam, inPair_seam, List.getLast?_concat, LineIndex.startsBetween_some,
    Option.some.injEq]
  exact (Classical.em _).symm.imp (fun apart => ⟨ends, apart⟩) id

end Text

open LineIndex (StartsAt StartsBehind startsBehind_cons startsBehind_later)

variable {t left right : Text} {limit offset best n m : Nat} {x : Char}

-- The start is looked for as far as the last terminator character before the limit.

theorem lineStartBefore_best (behind : best ≤ offset) (t : Text) :
    best ≤ lineStartBefore limit offset best t := by
  rcases lineStartBefore_parts limit offset best t with same | ⟨a, -, -, -, -, -, found⟩
  · exact Nat.le_of_eq same.symm
  · rw [found]
    exact Nat.le_trans behind (Nat.le_add_right _ _)

theorem lineStartBefore_reaches (ends : Text.isTerminator x = true) (right : Text)
    (early : offset + Text.size left < limit) :
    offset + Text.size left + 1 ≤ lineStartBefore limit offset best (left ++ x :: right) := by
  induction left generalizing offset best with
  | nil =>
    rw [Text.size_nil, Nat.add_zero] at early ⊢
    rw [List.nil_append, lineStartBefore, if_pos early, if_pos ends, Text.terminator_size ends]
    exact lineStartBefore_best (Nat.le_refl _) right
  | cons c left ih =>
    rw [Text.size_cons, ← Nat.add_assoc] at early ⊢
    rw [List.cons_append, lineStartBefore, if_pos (by omega)]
    exact ih early

theorem lineStartBefore_behind (ends : Text.isTerminator x = true) (left right : Text)
    (early : Text.size left < limit) :
    Text.size left + 1 ≤ lineStartBefore limit 0 0 (left ++ x :: right) := by
  have reached := @lineStartBefore_reaches left limit 0 0 x ends right (by rwa [Nat.zero_add])
  rwa [Nat.zero_add] at reached

theorem lineStartBefore_le : lineStartBefore limit 0 0 t ≤ limit := by
  rcases lineStartBefore_parts limit 0 0 t with same | ⟨a, -, -, -, -, within, found⟩
  · omega
  · omega

-- Inside a pair the search comes no further than the carriage return.
theorem lineStartBefore_inPair (inside : t.InPair n) : lineStartBefore n 0 0 t = n := by
  obtain ⟨left, right, rfl, place, last, -⟩ := inside
  obtain ⟨front, rfl⟩ := List.getLast?_eq_some_iff.mp last
  have size : Text.size (front ++ ['\r']) = Text.size front + 1 := Text.size_append front ['\r']
  have carriage : Text.isTerminator '\r' = true := rfl
  have within : Text.size front < n := by omega
  have reached := lineStartBefore_behind carriage front right within
  rw [List.append_assoc, List.singleton_append]
  exact Nat.le_antisymm lineStartBefore_le (by omega)

theorem lineStartBefore_starts (apart : ¬ t.InPair n) : StartsAt t (lineStartBefore n 0 0 t) := by
  rcases lineStartBefore_parts n 0 0 t with same | ⟨a, b, parts, held, ended, within, found⟩
  · rw [same]
    exact LineIndex.startsAt_zero t
  · obtain ⟨front, x, rfl, ends⟩ := ended.resolve_left held
    rw [Nat.zero_add] at found within
    rw [found]
    subst parts
    refine (Text.starts_or_inPair ends).resolve_right fun inside => ?_
    -- the line feed would have been met unless the offset lies right in front of it
    obtain ⟨-, feed⟩ := Text.inPair_seam.mp inside
    obtain ⟨behind, rfl⟩ := List.head?_eq_some_iff.mp feed
    rcases Nat.eq_or_lt_of_le within with same | before
    · exact apart (same ▸ inside)
    · have newline : Text.isTerminator '\n' = true := rfl
      have reached := lineStartBefore_behind newline (front ++ [x]) behind before
      omega

theorem lineStartBefore_latest (starts : StartsAt t m) (within : m ≤ n) :
    m ≤ lineStartBefore n 0 0 t := by
  obtain ⟨left, right, rfl, rfl, here⟩ := starts
  rcases List.eq_nil_or_concat' left with rfl | ⟨front, x, rfl⟩
  · exact Nat.zero_le _
  · have ends := LineIndex.terminator_before (LineIndex.startsAt_seam.mpr here)
    have size : Text.size (front ++ [x]) = Text.size front + 1 := by
      rw [Text.size_append, Text.size_cons, Text.size_nil, Text.terminator_size ends]
    rw [size] at within
    rw [List.append_assoc, List.singleton_append, size]
    exact lineStartBefore_behind ends front right within

inductive Stops (limit offset : Nat) (t : Text) : Nat → Prop where
  | next {stop : Nat} (starts : StartsBehind offset t stop) (beyond : limit < stop)
      (first : ∀ m, StartsBehind offset t m → limit < m → stop ≤ m) : Stops limit offset t stop
  | last (none : ∀ m, StartsBehind offset t m → m ≤ limit) :
      Stops limit offset t (offset + Text.size t)

theorem Stops.unique {stop other : Nat} (one : Stops limit offset t stop)
    (two : Stops limit offset t other) : stop = other := by
  cases one with
  | next starts beyond first =>
    cases two with
    | next starts' beyond' first' =>
      exact Nat.le_antisymm (first _ starts' beyond') (first' _ starts beyond)
    | last none =>
      have within := none _ starts
      omega
  | last none =>
    cases two with
    | next starts' beyond' first' =>
      have within := none _ starts'
      omega
    | last none' => rfl

theorem Stops.cons {rest : Text} {stop : Nat}
    (own : LineIndex.startsBetween (some x) rest.head? = true → offset + x.utf8Size ≤ limit)
    (stops : Stops limit (offset + x.utf8Size) rest stop) : Stops limit offset (x :: rest) stop := by
  have beyond : ∀ m, StartsBehind offset (x :: rest) m → limit < m →
      StartsBehind (offset + x.utf8Size) rest m := by
    intro m starts later
    rcases startsBehind_cons.mp starts with ⟨rfl, here⟩ | behind
    · exact absurd (own here) (Nat.not_le.mpr later)
    · exact behind
  cases stops with
  | next starts later first =>
    exact .next (startsBehind_cons.mpr (.inr starts)) later
      fun m starts later => first m (beyond m starts later) later
  | last none =>
    rw [Nat.add_assoc, ← Text.size_cons]
    refine .last fun m starts => Nat.le_of_not_lt fun later => ?_
    exact absurd (none m (beyond m starts later)) (Nat.not_le.mpr later)

theorem Stops.here {rest : Text} (starts : LineIndex.startsBetween (some x) rest.head? = true)
    (beyond : limit < offset + x.utf8Size) :
    Stops limit offset (x :: rest) (offset + x.utf8Size) := by
  refine .next (startsBehind_cons.mpr (.inl ⟨rfl, starts⟩)) beyond fun m later _ => ?_
  rcases startsBehind_cons.mp later with ⟨rfl, -⟩ | behind
  · exact Nat.le_refl _
  · exact Nat.le_of_lt (startsBehind_later behind)

theorem lineStopFrom_exact (limit offset : Nat) (t : Text) :
    Stops limit offset t (lineStopFrom limit offset t) := by
  have joined (n : Nat) (starts : LineIndex.startsBetween (some '\r') (some '\n') = true) :
      n ≤ limit := by cases starts
  fun_induction lineStopFrom limit offset t with
  | case1 offset => exact .last fun m starts => absurd starts LineIndex.startsBehind_nil
  | case2 offset rest reached =>
    exact .cons (joined _) (.here (x := '\n') rfl (by change limit < offset + 2; omega))
  | case3 offset rest notYet reached =>
    exact .cons (joined _) (.here (x := '\n') rfl (by change limit < offset + 2; omega))
  | case4 offset rest notYet later ih =>
    exact .cons (joined _) (.cons (fun _ => by change offset + 2 ≤ limit; omega) ih)
  | case5 offset c rest apart here =>
    have size := Text.terminator_size here.2
    refine .here (LineIndex.startsBetween_some.mpr ⟨here.2, ?_⟩) (by omega)
    rintro ⟨rfl, feed⟩
    obtain ⟨more, rfl⟩ := List.head?_eq_some_iff.mp feed
    exact apart more rfl rfl
  | case6 offset c rest apart notHere ih =>
    refine .cons (fun starts => ?_) ih
    have ends := (LineIndex.startsBetween_some.mp starts).1
    have size := Text.terminator_size ends
    have passed : ¬ limit ≤ offset := fun reached => notHere ⟨reached, ends⟩
    omega

namespace LineIndex

structure OnLine (t : Text) (n : Nat) (line : Span) : Prop where
  starts : StartsAt t line.start
  reached : line.start ≤ n
  latest : ∀ m, StartsAt t m → m ≤ n → m ≤ line.start
  stops : Stops n 0 t line.stop

theorem stops_of_starts {behind : List Nat} {stop : Nat}
    (member : ∀ m, m ∈ behind ↔ StartsAt t m ∧ n < m) (sorted : behind.Pairwise (· < ·))
    (found : behind.head?.getD (Text.size t) = stop) : Stops n 0 t stop := by
  have listed : ∀ m, StartsBehind 0 t m → n < m → m ∈ behind := fun m starts later =>
    (member m).mpr ⟨startsAt_iff.mpr (.inr starts), later⟩
  cases behind with
  | nil =>
    cases found
    rw [List.head?_nil, Option.getD_none, ← Nat.zero_add (Text.size t)]
    refine .last fun m starts => Nat.le_of_not_lt fun later => ?_
    cases listed m starts later
  | cons next others =>
    cases found
    obtain ⟨starts, later⟩ := (member next).mp (by simp)
    refine .next ((startsAt_iff.mp starts).resolve_left (by omega)) later fun m starts later => ?_
    rcases List.mem_cons.mp (listed m starts later) with rfl | further
    · exact Nat.le_refl _
    · exact Nat.le_of_lt ((List.pairwise_cons.mp sorted).1 m further)

theorem line_around (t : Text) (n : Nat) : ∃ p line, (ofText t).point? n = some p ∧
    (ofText t).lineSpan? p.row (Text.size t) = some line ∧ OnLine t n line := by
  have first : (ofText t).starts.head? = some 0 := rfl
  obtain ⟨p, found⟩ := point?_exists first n
  obtain ⟨front, start, behind, parts, rfl, reached, beyond⟩ := point?_parts found
  have sorted := ofText_sorted t
  have listed : ∀ m, StartsAt t m ↔ m ∈ front ∨ m = start ∨ m ∈ behind := fun m => by
    rw [← mem_ofText, parts, List.mem_append, List.mem_cons]
  rw [parts, List.pairwise_append, List.pairwise_cons] at sorted
  obtain ⟨-, ⟨later, others⟩, earlier⟩ := sorted
  have after : ∀ m ∈ behind, n < m := by
    intro m member
    cases behind with
    | nil => cases member
    | cons next more =>
      have first := beyond next rfl
      rcases List.mem_cons.mp member with rfl | further
      · exact first
      · exact Nat.lt_trans first ((List.pairwise_cons.mp others).1 m further)
  have starts : StartsAt t start := (listed start).mpr (.inr (.inl rfl))
  have forward : start ≤ behind.head?.getD (Text.size t) := by
    cases behind with
    | nil => exact startsAt_within starts
    | cons next more => exact Nat.le_trans reached (Nat.le_of_lt (beyond next rfl))
  have line : (ofText t).lineSpan? front.length (Text.size t) =
      some ⟨start, behind.head?.getD (Text.size t)⟩ := by
    have stop := Nat.max_eq_left forward
    simp [lineSpan?, lineStart?, parts, List.getElem?_append_right, ← List.head?_eq_getElem?, stop]
  refine ⟨_, _, found, line, starts, reached, fun m here within => ?_, ?_⟩
  · rcases (listed m).mp here with before | rfl | further
    · exact Nat.le_of_lt (earlier m before start (by simp))
    · exact Nat.le_refl _
    · exact absurd (after m further) (Nat.not_lt.mpr within)
  · refine stops_of_starts (fun m => ?_) others rfl
    constructor
    · exact fun member => ⟨(listed m).mpr (.inr (.inr member)), after m member⟩
    · rintro ⟨here, further⟩
      rcases (listed m).mp here with before | rfl | behind
      · have sooner := earlier m before start (by simp)
        omega
      · omega
      · exact behind

def lines? (t : Text) (first last : Nat) : Option Span := do
  let p ← (ofText t).point? first
  let q ← (ofText t).point? last
  let front ← (ofText t).lineSpan? p.row (Text.size t)
  let back ← (ofText t).lineSpan? q.row (Text.size t)
  some ⟨front.start, back.stop⟩

theorem lines?_exact (t : Text) (first last : Nat) : ∃ front back,
    lines? t first last = some ⟨front.start, back.stop⟩ ∧ OnLine t first front ∧
      OnLine t last back := by
  obtain ⟨p, front, at_first, line, own⟩ := line_around t first
  obtain ⟨q, back, at_last, line', own'⟩ := line_around t last
  exact ⟨front, back, by simp [lines?, at_first, at_last, line, line'], own, own'⟩

end LineIndex

theorem lineBounds_start {front : Span} (s : Span)
    (own : LineIndex.OnLine t (s.clamp (Text.size t)).start front) :
    (lineBounds t s).start = front.start ↔ ¬ t.InPair (s.clamp (Text.size t)).start := by
  constructor
  · intro same inside
    -- the line started before the carriage return, at the latest
    have starts := own.starts
    rw [← same, lineBounds, lineStartBefore_inPair inside] at starts
    obtain ⟨left, right, rfl, place, last, feed⟩ := inside
    rw [← place, LineIndex.startsAt_seam, last, LineIndex.startsBetween_some] at starts
    exact starts.2 ⟨rfl, feed⟩
  · intro apart
    exact Nat.le_antisymm (own.latest _ (lineStartBefore_starts apart) lineStartBefore_le)
      (lineStartBefore_latest own.starts own.reached)

theorem lineBounds_stop {back : Span} (s : Span)
    (own : LineIndex.OnLine t (s.clamp (Text.size t)).stop back) :
    (lineBounds t s).stop = back.stop :=
  (lineStopFrom_exact _ 0 t).unique own.stops

theorem widened_start (l : Rules.RuleLayer) (t : Text) (s : Span) :
    (l.widened t s).start = (lineBounds t s).start := by
  unfold Rules.RuleLayer.widened
  split <;> rfl

theorem widened_stop (l : Rules.RuleLayer) (t : Text) (s : Span) : (l.widened t s).stop =
    if l.rules.spansLines then Text.size t else (lineBounds t s).stop := by
  unfold Rules.RuleLayer.widened
  split <;> rfl

-- The lines around a span end where the index says, and start where it says exactly if the span
-- does not start between a carriage return and its line feed; if it does, they start right there.
theorem lineBounds_lines (t : Text) (s : Span) : ∃ lines,
    LineIndex.lines? t (s.clamp (Text.size t)).start (s.clamp (Text.size t)).stop = some lines ∧
    (lineBounds t s).stop = lines.stop ∧
    (lineBounds t s = lines ↔ ¬ t.InPair (s.clamp (Text.size t)).start) ∧
    (t.InPair (s.clamp (Text.size t)).start →
      (lineBounds t s).start = (s.clamp (Text.size t)).start ∧
        lines.start < (lineBounds t s).start) ∧
    (∀ r : Rules.RuleSet, r.spansLines = false →
      (r.scanSpan t s = lines ↔ ¬ t.InPair (s.clamp (Text.size t)).start)) ∧
    ∀ l : Rules.RuleLayer,
      (l.widened t s).stop = (if l.rules.spansLines then Text.size t else lines.stop) ∧
      ((l.widened t s).start = lines.start ↔ ¬ t.InPair (s.clamp (Text.size t)).start) := by
  obtain ⟨front, back, found, own, own'⟩ :=
    LineIndex.lines?_exact t (s.clamp (Text.size t)).start (s.clamp (Text.size t)).stop
  have start := lineBounds_start s own
  have stop := lineBounds_stop s own'
  have whole : lineBounds t s = ⟨front.start, back.stop⟩ ↔
      ¬ t.InPair (s.clamp (Text.size t)).start := by
    rw [← start, Span.mk.injEq, and_iff_left stop]
  refine ⟨_, found, stop, whole, fun inside => ?_, fun r single => ?_, fun l => ?_⟩
  · have here : (lineBounds t s).start = (s.clamp (Text.size t)).start :=
      lineStartBefore_inPair inside
    have other : (lineBounds t s).start ≠ front.start := fun same => start.mp same inside
    exact ⟨here, Nat.lt_of_le_of_ne (here ▸ own.reached) other.symm⟩
  · rw [Rules.RuleSet.scanSpan, single, if_neg Bool.false_ne_true]
    exact whole
  · rw [widened_start, widened_stop, stop]
    exact ⟨rfl, start⟩

-- In front of the line feed of a pair the line counts as starting there.
theorem lineBounds_parted : ¬ ∀ (t : Text) (s : Span),
    LineIndex.lines? t (s.clamp (Text.size t)).start (s.clamp (Text.size t)).stop =
      some (lineBounds t s) := by
  intro claim
  have same := claim ['a', '\r', '\n', 'b'] ⟨2, 2⟩
  revert same
  decide

end LiveHighlight
