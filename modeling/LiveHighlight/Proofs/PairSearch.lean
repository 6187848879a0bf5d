import LiveHighlight.Proofs.Acceptance
import LiveHighlight.Proofs.Literals
import LiveHighlight.Proofs.SweptRegions

-- The search for begin and end matches as it goes on over offsets, with every cut of the text
-- checked. Of a pattern nothing is known but that its matches lie ahead.

namespace LiveHighlight

namespace Text

variable {t h b : Text} {n m : Nat}

-- The text up to an offset, what stands right before one, and where the line ends that goes on at
-- one. Each asks for a place of the text.

def upTo? (t : Text) (n : Nat) : Option Text := (cut? t n).map (·.1)

def escapedAt? (t : Text) (n : Nat) : Option Bool :=
  (cut? t n).map fun halves => (halves.1.reverse.takeWhile (· == '\\')).length % 2 == 1

def contentStop? (t : Text) (n : Nat) : Option Nat :=
  (cut? t n).map fun halves => n + size (lineContent halves.2).1

def stepFrom (t : Text) (n : Nat) : Nat :=
  match cut? t n with
  | some (_, c :: _) => n + c.utf8Size
  | _ => n + 1

theorem stepFrom_later (t : Text) (n : Nat) : n < stepFrom t n := by
  unfold stepFrom
  split
  · rename_i c _ _
    have positive := c.utf8Size_pos
    omega
  · exact Nat.lt_succ_self n

theorem Boundary.further (whole : t = h ++ b) (place : Boundary h n) : Boundary t n := by
  obtain ⟨left, right, rfl, rfl⟩ := place
  exact ⟨left, right ++ b, by rw [whole, List.append_assoc], rfl⟩

theorem Boundary.front (whole : t = h ++ b) (place : Boundary t n) (within : n ≤ size h) :
    Boundary h n := by
  obtain ⟨left, right, same, rfl⟩ := place
  obtain ⟨between, rfl, -⟩ := halves_of_le (same.symm.trans whole) within
  exact ⟨left, between, rfl, rfl⟩

theorem boundary_size (t : Text) : Boundary t (size t) := ⟨t, [], by simp, rfl⟩

theorem boundary_min (first : Boundary t n) (second : Boundary t m) : Boundary t (min n m) := by
  rcases Nat.le_total n m with less | more
  · rwa [Nat.min_eq_left less]
  · rwa [Nat.min_eq_right more]

theorem upTo?_exact : upTo? t n = some h ↔ ∃ b, t = h ++ b ∧ size h = n := by
  constructor
  · intro cut
    obtain ⟨⟨left, right⟩, halves, rfl⟩ := Option.map_eq_some_iff.mp cut
    exact ⟨right, cut?_parts halves⟩
  · rintro ⟨b, rfl, rfl⟩
    rw [upTo?, cut?_append]
    rfl

theorem upTo?_placed (place : Boundary t n) : ∃ h, upTo? t n = some h := by
  obtain ⟨left, right, rfl, rfl⟩ := place
  exact ⟨left, upTo?_exact.mpr ⟨right, rfl, rfl⟩⟩

theorem escapedAt?_placed (place : Boundary t n) : ∃ e, escapedAt? t n = some e := by
  obtain ⟨left, right, rfl, rfl⟩ := place
  exact ⟨_, by rw [escapedAt?, cut?_append]; rfl⟩

theorem stepFrom_placed (place : Boundary h n) (within : stepFrom (h ++ b) n ≤ size h) :
    Boundary h (stepFrom (h ++ b) n) := by
  obtain ⟨left, right, rfl, rfl⟩ := place
  have cut : cut? (left ++ right ++ b) (size left) = some (left, right ++ b) := by
    rw [List.append_assoc, cut?_append]
  cases right with
  | nil =>
    have later := stepFrom_later (left ++ [] ++ b) (size left)
    rw [List.append_nil] at within later
    omega
  | cons c right =>
    refine ⟨left ++ [c], right, by simp, ?_⟩
    rw [stepFrom, cut, size_append]
    rfl

end Text

structure Hit (h : Text) (n : Nat) extends Span where
  ahead : n ≤ start
  ordered : start ≤ stop
  starts : Text.Boundary h start
  stops : Text.Boundary h stop

-- What a pattern is asked, and all that is promised of its answers.
structure Search where
  at? : (h : Text) → (n : Nat) → Option (Hit h n)

def Search.Answers (s : Search) (m : Span) : Prop :=
  ∃ h n, ∃ hit : Hit h n, s.at? h n = some hit ∧ hit.toSpan = m

def Search.find? (s : Search) (h : Text) (n : Nat) : Option (Option (Hit h n)) :=
  (Text.cut? h n).map fun _ => s.at? h n

namespace Hit

variable {h : Text} {n : Nat}

def behind (m : Hit h n) (t : Text) : Nat :=
  if m.isEmpty then t.stepFrom m.stop else m.stop

theorem behind_later (m : Hit h n) (t : Text) : m.start < m.behind t ∧ m.stop ≤ m.behind t := by
  have ordered := m.ordered
  have later := t.stepFrom_later m.stop
  unfold behind
  split
  · omega
  · rename_i moved
    have more : m.start < m.stop := by simpa [Span.isEmpty] using moved
    omega

end Hit

structure PairMatch where
  opening : Span
  closing : Span

def PairMatch.region (f : PairMatch) : Span := ⟨f.opening.start, f.closing.stop⟩

structure PairSearch where
  first : Search
  last : Search
  multiline : Bool
  escapable : Bool

namespace PairSearch

-- The first end match in a text that is not escaped. An escaped one takes the search behind it.
def closing? (r : PairSearch) (t h : Text) (n : Nat) : Option (Option Span) :=
  match r.last.find? h n with
  | none => none
  | some none => some none
  | some (some m) =>
    if r.escapable && !m.isEmpty then
      match t.escapedAt? m.start with
      | none => none
      | some true => closing? r t h m.stop
      | some false => some (some m.toSpan)
    else some (some m.toSpan)
termination_by Text.size h - n
decreasing_by
  rename_i moved
  have ahead := m.ahead
  have within := m.stops.within
  have more : m.start < m.stop := by
    simpa [Span.isEmpty] using (Bool.and_eq_true_iff.mp moved).2
  omega

inductive Turn (n : Nat) where
  | done
  | on (next : Nat) (later : n < next)
  | take (f : PairMatch) (next : Nat) (later : n < next)

def escaped? (r : PairSearch) (t : Text) (n : Nat) : Option Bool :=
  if r.escapable then t.escapedAt? n else some false

def limit? (r : PairSearch) (t h : Text) (n : Nat) : Option Nat :=
  if r.multiline then some (Text.size h) else (t.contentStop? n).map (min · (Text.size h))

def partner? (r : PairSearch) (t h : Text) (n : Nat) (m : Hit h n) : Option (Option Span) := do
  let limit ← r.limit? t h m.stop
  if limit < m.behind t then some none else r.closing? t (← t.upTo? limit) (m.behind t)

def turn? (r : PairSearch) (t h : Text) (n : Nat) : Option (Turn n) := do
  match ← r.first.find? h n with
  | none => some .done
  | some m =>
    have later : n < m.behind t := Nat.lt_of_le_of_lt m.ahead (m.behind_later t).1
    if ← r.escaped? t m.start then some (.on (m.behind t) later)
    else
      match ← r.partner? t h n m with
      | none => some (.on (m.behind t) later)
      | some c =>
        some (.take ⟨m.toSpan, c⟩ (max c.stop (m.behind t))
          (Nat.lt_of_lt_of_le later (Nat.le_max_right _ _)))

def regionsFrom? (r : PairSearch) (t h : Text) (n : Nat) : Option (List PairMatch) :=
  if n < Text.size h then
    match r.turn? t h n with
    | none => none
    | some .done => some []
    | some (.on next _) => regionsFrom? r t h next
    | some (.take f next _) => (regionsFrom? r t h next).map (f :: ·)
  else some []
termination_by Text.size h - n

-- The regions of a stretch of text, unless some cut on the way fails.
def regions? (r : PairSearch) (t : Text) (s : Span) : Option (List PairMatch) := do
  r.regionsFrom? t (← t.upTo? s.stop) s.start

variable {r : PairSearch} {t h b : Text} {n : Nat} {s : Span} {f : PairMatch}

theorem find?_placed {search : Search} (place : Text.Boundary h n) :
    search.find? h n = some (search.at? h n) := by
  obtain ⟨left, right, rfl, rfl⟩ := place
  rw [Search.find?, Text.cut?_append]
  rfl

structure Closes (r : PairSearch) (t h : Text) (n : Nat) (m : Span) : Prop where
  ahead : n ≤ m.start
  ordered : m.start ≤ m.stop
  starts : Text.Boundary h m.start
  stops : Text.Boundary h m.stop
  answer : r.last.Answers m
  plain : r.escapable = true → m.isEmpty = true ∨ t.escapedAt? m.start = some false

theorem closing?_total (whole : t = h ++ b) (place : Text.Boundary h n) :
    ∃ c, r.closing? t h n = some c ∧ ∀ m, c = some m → r.Closes t h n m := by
  have answers {n : Nat} {m : Hit h n} (place : Text.Boundary h n)
      (found : r.last.find? h n = some (some m)) : r.last.Answers m.toSpan := by
    rw [find?_placed place] at found
    exact ⟨h, n, m, Option.some.inj found, rfl⟩
  fun_induction r.closing? t h n with
  | case1 n unasked =>
    rw [find?_placed place] at unasked
    cases unasked
  | case2 n missed => exact ⟨none, rfl, by simp⟩
  | case3 n m found moved failed =>
    obtain ⟨e, told⟩ := Text.escapedAt?_placed (m.starts.further whole)
    rw [failed] at told
    cases told
  | case4 n m found moved escaped ih =>
    obtain ⟨c, closes, each⟩ := ih m.stops
    refine ⟨c, closes, fun k same => ?_⟩
    have further := each k same
    have ahead := m.ahead
    have ordered := m.ordered
    exact { further with ahead := by have later := further.ahead; omega }
  | case5 n m found moved plain =>
    refine ⟨_, rfl, fun k same => ?_⟩
    cases same
    exact ⟨m.ahead, m.ordered, m.starts, m.stops, answers place found, fun _ => .inr plain⟩
  | case6 n m found still =>
    refine ⟨_, rfl, fun k same => ?_⟩
    cases same
    exact ⟨m.ahead, m.ordered, m.starts, m.stops, answers place found,
      fun asked => .inl (by simpa [asked] using still)⟩

-- The end match stands behind the begin match, on one line with it unless the rule spans lines.
structure Finds (r : PairSearch) (t : Text) (s : Span) (f : PairMatch) : Prop where
  held : f.region.start < f.region.stop
  within : s.Covers f.region
  opening : f.opening.start ≤ f.opening.stop
  behind : f.opening.stop ≤ f.closing.start
  closing : f.closing.start ≤ f.closing.stop
  placed : Text.Boundary t f.opening.start ∧ Text.Boundary t f.opening.stop ∧
    Text.Boundary t f.closing.start ∧ Text.Boundary t f.closing.stop
  inLine : r.multiline = false → ∃ left middle right,
    Text.split? t ⟨f.opening.stop, f.closing.stop⟩ = some (left, middle, right) ∧
      middle.inLine = true
  answers : r.first.Answers f.opening ∧ r.last.Answers f.closing
  openingPlain : r.escapable = true → t.escapedAt? f.opening.start = some false
  closingPlain : r.escapable = true →
    f.closing.isEmpty = true ∨ t.escapedAt? f.closing.start = some false

inductive Turned (r : PairSearch) (t h : Text) (n : Nat) : Turn n → Prop where
  | done : Turned r t h n .done
  | on {next : Nat} {later : n < next} (placed : next ≤ Text.size h → Text.Boundary h next) :
      Turned r t h n (.on next later)
  | take {f : PairMatch} {next : Nat} {later : n < next} (stop : next = f.closing.stop)
      (placed : Text.Boundary h next) (finds : r.Finds t ⟨n, Text.size h⟩ f) :
      Turned r t h n (.take f next later)

theorem behind_placed (whole : t = h ++ b) (m : Hit h n) (within : m.behind t ≤ Text.size h) :
    Text.Boundary h (m.behind t) := by
  unfold Hit.behind at within ⊢
  split
  · rename_i still
    rw [if_pos still] at within
    subst whole
    exact Text.stepFrom_placed m.stops within
  · exact m.stops

theorem escaped?_total (place : Text.Boundary t n) : ∃ e, r.escaped? t n = some e ∧
    (r.escapable = true → t.escapedAt? n = some e) := by
  unfold escaped?
  split
  · obtain ⟨e, told⟩ := Text.escapedAt?_placed place
    exact ⟨e, told, fun _ => told⟩
  · rename_i unasked
    exact ⟨false, rfl, fun asked => absurd asked unasked⟩

-- The limit is a place of the stretch, and no line ends before it unless the rule spans lines.
theorem limit?_total (whole : t = h ++ b) (place : Text.Boundary h n) : ∃ limit,
    r.limit? t h n = some limit ∧ Text.Boundary h limit ∧
      (r.multiline = false → ∃ left content right, t = left ++ (content ++ right) ∧
        Text.size left = n ∧ content.inLine = true ∧ limit ≤ n + Text.size content) := by
  have last := Text.boundary_size h
  unfold limit?
  split
  · rename_i lines
    exact ⟨_, rfl, last, by simp [lines]⟩
  · obtain ⟨left, rest, halves, rfl⟩ := place.further whole
    have parts := Text.lineContent_parts rest
    have content : t.contentStop? (Text.size left) =
        some (Text.size left + Text.size (Text.lineContent rest).1) := by
      rw [Text.contentStop?, halves, Text.cut?_append]
      rfl
    have ends : Text.Boundary t (Text.size left + Text.size (Text.lineContent rest).1) := by
      refine ⟨left ++ (Text.lineContent rest).1, (Text.lineContent rest).2, ?_, ?_⟩
      · rw [List.append_assoc, parts, halves]
      · rw [Text.size_append]
    refine ⟨_, by rw [content]; rfl, ?_, fun _ => ?_⟩
    · exact (Text.boundary_min ends (last.further whole)).front whole (Nat.min_le_right _ _)
    · exact ⟨left, _, _, by rw [parts, halves], rfl, Text.lineContent_inLine rest,
        Nat.min_le_left _ _⟩

theorem inLine_piece {left content right : Text} {k m : Nat}
    (whole : t = left ++ (content ++ right)) (start : Text.size left = k) (kept : content.inLine = true) (stop : Text.Boundary t m)
    (ordered : k ≤ m) (near : m ≤ k + Text.size content) :
    ∃ left middle right, Text.split? t ⟨k, m⟩ = some (left, middle, right) ∧
      middle.inLine = true := by
  obtain ⟨front, behind, halves, place⟩ := stop
  obtain ⟨middle, rfl, inner⟩ :=
    Text.halves_of_le (whole.symm.trans halves) (by rw [start, place]; exact ordered)
  rw [Text.size_append, start] at place
  obtain ⟨rest, parts, -⟩ := Text.halves_of_le inner.symm (by omega)
  refine ⟨left, middle, behind, Text.split?_exact.mpr ⟨?_, start, ?_⟩, ?_⟩
  · rw [halves, List.append_assoc]
  · rw [start]
    exact place
  · rw [parts] at kept
    exact (Text.inLine_append.mp kept).1

theorem partner?_total (whole : t = h ++ b) (m : Hit h n) : ∃ c, r.partner? t h n m = some c ∧
    ∀ k, c = some k → r.Closes t h (m.behind t) k ∧
      (r.multiline = false → ∃ left middle right,
        Text.split? t ⟨m.stop, k.stop⟩ = some (left, middle, right) ∧ middle.inLine = true) := by
  obtain ⟨limit, told, limited, lined⟩ := limit?_total (r := r) whole m.stops
  unfold partner?
  simp only [told, Option.bind_eq_bind, Option.bind_some]
  split
  · exact ⟨none, rfl, by simp⟩
  · rename_i near
    obtain ⟨front, cut⟩ := Text.upTo?_placed (limited.further whole)
    obtain ⟨beyond, parts, size⟩ := Text.upTo?_exact.mp cut
    have within := limited.within
    have later : m.behind t ≤ Text.size front := by omega
    obtain ⟨rest, inner, -⟩ := Text.halves_of_le (parts.symm.trans whole) (by omega)
    have from_here : Text.Boundary front (m.behind t) :=
      ((behind_placed whole m (by omega)).further whole).front parts later
    obtain ⟨c, closes, each⟩ := closing?_total (r := r) parts from_here
    rw [cut, Option.bind_some]
    refine ⟨c, closes, fun k same => ⟨?_, fun single => ?_⟩⟩
    · have found := each k same
      exact { found with
        starts := found.starts.further inner, stops := found.stops.further inner }
    · have found := each k same
      have reach := found.stops.within
      have behind := (m.behind_later t).2
      have ahead := found.ahead
      have ordered := found.ordered
      obtain ⟨left, content, right, text, start, kept, ends⟩ := lined single
      exact inLine_piece text start kept (found.stops.further parts) (by omega) (by omega)

theorem turn?_total (whole : t = h ++ b) (place : Text.Boundary h n) :
    ∃ turn, r.turn? t h n = some turn ∧ r.Turned t h n turn := by
  unfold turn?
  rw [find?_placed place, Option.bind_eq_bind, Option.bind_some]
  cases opening : r.first.at? h n with
  | none => exact ⟨_, rfl, .done⟩
  | some m =>
    obtain ⟨e, told, asked⟩ := escaped?_total (r := r) (m.starts.further whole)
    obtain ⟨c, partner, closes⟩ := partner?_total (r := r) whole m
    simp only [told, partner, Option.bind_eq_bind, Option.bind_some]
    cases e with
    | true => exact ⟨_, rfl, .on (behind_placed whole m)⟩
    | false =>
      cases c with
      | none => exact ⟨_, rfl, .on (behind_placed whole m)⟩
      | some k =>
        obtain ⟨found, lined⟩ := closes k rfl
        obtain ⟨moved, behind⟩ := m.behind_later t
        have ahead := m.ahead
        have ordered := m.ordered
        have later := found.ahead
        have closing := found.ordered
        have near := found.stops.within
        have stop : max k.stop (m.behind t) = k.stop := Nat.max_eq_left (by omega)
        refine ⟨_, rfl, .take stop (by rw [stop]; exact found.stops) ?_⟩
        exact {
          held := by simp only [PairMatch.region]; omega
          within := by simp only [Span.Covers, PairMatch.region]; omega
          opening := ordered
          behind := by simp only; omega
          closing := closing
          placed := ⟨m.starts.further whole, m.stops.further whole, found.starts.further whole,
            found.stops.further whole⟩
          inLine := lined
          answers := ⟨⟨h, n, m, opening, rfl⟩, found.answer⟩
          openingPlain := asked
          closingPlain := found.plain }

theorem Finds.sooner {m : Nat} (found : r.Finds t ⟨m, Text.size h⟩ f) (later : n ≤ m) :
    r.Finds t ⟨n, Text.size h⟩ f :=
  { found with within := ⟨Nat.le_trans later found.within.1, found.within.2⟩ }

def Before (f g : PairMatch) : Prop := f.closing.stop ≤ g.opening.start

theorem regionsFrom?_total (whole : t = h ++ b)
    (place : n ≤ Text.size h → Text.Boundary h n) : ∃ l, r.regionsFrom? t h n = some l ∧
      l.Pairwise Before ∧ ∀ f ∈ l, r.Finds t ⟨n, Text.size h⟩ f := by
  fun_induction r.regionsFrom? t h n with
  | case1 n inside failed =>
    obtain ⟨turn, told, -⟩ := turn?_total (r := r) whole (place (Nat.le_of_lt inside))
    rw [failed] at told
    cases told
  | case2 n inside told => exact ⟨[], rfl, .nil, by simp⟩
  | case3 n inside next later told ih =>
    obtain ⟨turn, same, turned⟩ := turn?_total (r := r) whole (place (Nat.le_of_lt inside))
    cases told.symm.trans same
    cases turned with
    | on placed =>
      obtain ⟨l, regions, parted, each⟩ := ih placed
      exact ⟨l, regions, parted, fun f listed => (each f listed).sooner (Nat.le_of_lt later)⟩
  | case4 n inside f next later told ih =>
    obtain ⟨turn, same, turned⟩ := turn?_total (r := r) whole (place (Nat.le_of_lt inside))
    cases told.symm.trans same
    cases turned with
    | take stop placed finds =>
      obtain ⟨l, regions, parted, each⟩ := ih fun _ => placed
      refine ⟨f :: l, by rw [regions]; rfl, .cons ?_ parted, fun g listed => ?_⟩
      · intro g listed
        have behind : next ≤ g.opening.start := (each g listed).within.1
        rwa [stop] at behind
      · rcases List.mem_cons.mp listed with rfl | behind
        · exact finds
        · exact (each g behind).sooner (Nat.le_of_lt later)
  | case5 n outside => exact ⟨[], rfl, .nil, by simp⟩

theorem regions?_total (starts : Text.Boundary t s.start) (stops : Text.Boundary t s.stop) :
    ∃ l, r.regions? t s = some l ∧ l.Pairwise Before ∧ ∀ f ∈ l, r.Finds t s f := by
  obtain ⟨h, cut⟩ := Text.upTo?_placed stops
  obtain ⟨b, whole, size⟩ := Text.upTo?_exact.mp cut
  obtain ⟨l, regions, parted, each⟩ :=
    regionsFrom?_total (r := r) (n := s.start) whole (starts.front whole)
  rw [size] at each
  exact ⟨l, by rw [regions?, cut]; exact regions, parted, each⟩

end PairSearch

end LiveHighlight
