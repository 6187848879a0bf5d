import Mathlib.Data.Rat.Floor
import Mathlib.Data.Set.Lattice
import Mathlib.Logic.Relation
import Mathlib.Order.Interval.Set.Defs
import LiveHighlight.Proofs.SpanSearch

-- Sets of spans as they are built by insertion and union in any order. All that counts is which
-- points of the line the inserted spans cover, so that union is that of a semilattice.

namespace LiveHighlight

namespace Span

variable {r s : Span} {k : Nat} {q : ℚ}

def points (s : Span) : Set ℚ := Set.Icc s.start s.stop

theorem half_mem : (k / 2 : ℚ) ∈ s.points ↔ s.Reaches k := by
  have lower : ((s.start : ℚ) ≤ k / 2) ↔ 2 * s.start ≤ k := by
    rw [le_div_iff₀ (by norm_num), mul_comm]
    exact_mod_cast Iff.rfl
  have upper : ((k / 2 : ℚ) ≤ s.stop) ↔ k ≤ 2 * s.stop := by
    rw [div_le_iff₀ (by norm_num), mul_comm]
    exact_mod_cast Iff.rfl
  exact and_congr lower upper

-- A point between two offsets is covered as the half between them is.
theorem mem_points : q ∈ s.points ↔ 0 ≤ q ∧ s.Reaches (⌊q⌋₊ + ⌈q⌉₊) := by
  have near := Nat.floor_le_ceil q
  have next := Nat.ceil_le_floor_add_one q
  unfold points Reaches
  rw [Set.mem_Icc, ← Nat.ceil_le]
  constructor
  · intro inside
    have positive : 0 ≤ q := le_trans (Nat.cast_nonneg s.start) inside.1
    have lower := (Nat.le_floor_iff positive).mpr inside.1
    have upper := inside.2
    exact ⟨positive, by omega, by omega⟩
  · intro reached
    obtain ⟨positive, lower, upper⟩ := reached
    exact ⟨(Nat.le_floor_iff positive).mp (by omega), by omega⟩

end Span

namespace SpanSet

variable {l m : List Span} {s t : SpanSet} {a b c r : Span} {k p q : Nat}

def covered (l : List Span) : Set ℚ := ⋃ s ∈ l, s.points

theorem half_covered : (k / 2 : ℚ) ∈ covered l ↔ ListReaches l k := by
  simp [covered, ListReaches, Span.half_mem]

theorem mem_covered {x : ℚ} : x ∈ covered l ↔ 0 ≤ x ∧ ListReaches l (⌊x⌋₊ + ⌈x⌉₊) := by
  simp only [covered, ListReaches, Set.mem_iUnion₂, exists_prop, Span.mem_points]
  constructor
  · intro found
    obtain ⟨s, member, positive, reached⟩ := found
    exact ⟨positive, s, member, reached⟩
  · intro found
    obtain ⟨positive, s, member, reached⟩ := found
    exact ⟨s, member, positive, reached⟩

theorem covered_eq_iff : covered l = covered m ↔ ∀ k, ListReaches l k ↔ ListReaches m k := by
  constructor
  · intro same k
    rw [← half_covered, ← half_covered, same]
  · intro same
    ext x
    rw [mem_covered, mem_covered, same]

theorem listReaches_append : ListReaches (l ++ m) k ↔ ListReaches l k ∨ ListReaches m k := by
  simp only [ListReaches, List.mem_append, or_and_right, exists_or]

theorem eq_of_reaches (first : Canonical s.spans) (second : Canonical t.spans)
    (same : ∀ k, ListReaches s.spans k ↔ ListReaches t.spans k) : s = t := by
  obtain ⟨left⟩ := s
  obtain ⟨right⟩ := t
  exact congrArg SpanSet.mk (canonical_unique first second same)

theorem ofList_eq_iff : ofList l = ofList m ↔ covered l = covered m := by
  rw [covered_eq_iff]
  constructor
  · intro same k
    rw [← ofList_reaches, same, ofList_reaches]
  · intro same
    apply eq_of_reaches (ofList_canonical l) (ofList_canonical m)
    intro k
    rw [ofList_reaches, ofList_reaches, same]

theorem covered_of_mem (same : ∀ r : Span, r.Proper → (r ∈ l ↔ r ∈ m)) :
    covered l = covered m := by
  rw [covered_eq_iff]
  intro k
  constructor
  · intro reached
    obtain ⟨r, member, own⟩ := reached
    exact ⟨r, (same r (reaches_proper own)).mp member, own⟩
  · intro reached
    obtain ⟨r, member, own⟩ := reached
    exact ⟨r, (same r (reaches_proper own)).mpr member, own⟩

def Meets (l : List Span) (a b : Span) : Prop :=
  (a ∈ l ∧ a.Proper) ∧ (b ∈ l ∧ b.Proper) ∧ a.touches b = true

-- Spans of one block: from one to the other by spans of the list of which each meets the next.
def Linked (l : List Span) : Span → Span → Prop := Relation.TransGen (Meets l)

def InBlock (l : List Span) (r : Span) : Prop :=
  ∃ a b, Linked l a b ∧ a.start ≤ r.start ∧ r.stop ≤ b.stop

theorem Linked.listed (linked : Linked l a b) : b ∈ l ∧ b.Proper := by
  cases linked with
  | single meets => exact meets.2.1
  | tail _ meets => exact meets.2.1

theorem linked_self (member : a ∈ l) (proper : a.Proper) : Linked l a a :=
  .single ⟨⟨member, proper⟩, ⟨member, proper⟩, Span.touches_iff.mpr ⟨proper, proper⟩⟩

-- Where the span at hand ends, the one that reaches the byte behind it touches it.
theorem linked_of_reached (ordered : p ≤ q)
    (reached : ∀ k, 2 * p ≤ k → k ≤ 2 * q → ListReaches l k) :
    ∃ a b, Linked l a b ∧ a.start ≤ p ∧ q ≤ b.stop := by
  induction q, ordered using Nat.le_induction with
  | base =>
    obtain ⟨a, member, own⟩ := reached (2 * p) (Nat.le_refl _) (Nat.le_refl _)
    have linked := linked_self member (reaches_proper own)
    exact ⟨a, a, linked, by have := own.1; omega, by have := own.2; omega⟩
  | succ q ordered ih =>
    obtain ⟨a, b, linked, starts, stops⟩ := ih fun k lower upper => reached k lower (by omega)
    by_cases further : q + 1 ≤ b.stop
    · exact ⟨a, b, linked, starts, further⟩
    · obtain ⟨c, member, own⟩ := reached (2 * q + 1) (by omega) (by omega)
      have proper : b.start ≤ b.stop := linked.listed.2
      obtain ⟨lower, upper⟩ := own
      have meets : b.touches c = true := Span.touches_iff.mpr ⟨by omega, by omega⟩
      have next : Meets l b c := ⟨linked.listed, ⟨member, reaches_proper ⟨lower, upper⟩⟩, meets⟩
      exact ⟨a, c, .tail linked next, starts, by omega⟩

theorem Canonical.met {m n : Span} (canonical : Canonical l) (first : m ∈ l) (second : n ∈ l)
    (left : m.Covers a) (right : n.Covers b) (meets : a.touches b = true) : m = n := by
  obtain ⟨reaches, reached⟩ := Span.touches_iff.mp meets
  have before := left.1
  have behind := left.2
  have before' := right.1
  have behind' := right.2
  rcases canonical.parted first second with same | early | late
  · exact same
  · omega
  · omega

theorem gathered_holds (member : r ∈ l) (proper : r.Proper) : (ofList l).Holds r :=
  insertAll_holds proper (.inl member)

theorem linked_held (linked : Linked l a b) :
    ∃ m ∈ (ofList l).spans, m.Covers a ∧ m.Covers b := by
  have canonical := ofList_canonical l
  induction linked with
  | single meets =>
    obtain ⟨first, second, touch⟩ := meets
    obtain ⟨m, held, covers⟩ := gathered_holds first.1 first.2
    obtain ⟨n, held', covers'⟩ := gathered_holds second.1 second.2
    cases canonical.met held held' covers covers' touch
    exact ⟨m, held, covers, covers'⟩
  | tail _ meets ih =>
    obtain ⟨-, second, touch⟩ := meets
    obtain ⟨m, held, covers, last⟩ := ih
    obtain ⟨n, held', covers'⟩ := gathered_holds second.1 second.2
    cases canonical.met held held' last covers' touch
    exact ⟨m, held, covers, covers'⟩

theorem ofList_holds_iff (l : List Span) (r : Span) : (ofList l).Holds r ↔ InBlock l r := by
  constructor
  · intro holds
    obtain ⟨m, held, covers⟩ := holds
    have reached (k : Nat) (lower : 2 * m.start ≤ k) (upper : k ≤ 2 * m.stop) : ListReaches l k :=
      (ofList_reaches l).mp ⟨m, held, lower, upper⟩
    obtain ⟨a, b, linked, starts, stops⟩ :=
      linked_of_reached ((ofList_canonical l).2 m held) reached
    exact ⟨a, b, linked, Nat.le_trans starts covers.1, Nat.le_trans covers.2 stops⟩
  · intro inside
    obtain ⟨a, b, linked, starts, stops⟩ := inside
    obtain ⟨m, held, first, last⟩ := linked_held linked
    exact ⟨m, held, Nat.le_trans first.1 starts, Nat.le_trans stops last.2⟩

-- An empty span joins what it stands between, and else is a member of its own.
example : (ofList [⟨4, 6⟩, ⟨0, 2⟩, ⟨2, 2⟩, ⟨9, 9⟩, ⟨8, 7⟩, ⟨2, 4⟩]).spans = [⟨0, 6⟩, ⟨9, 9⟩] := by
  decide

theorem touches_iff_reaches (first : a.Proper) (second : b.Proper) :
    a.touches b = true ↔ ∃ k, a.Reaches k ∧ b.Reaches k := by
  unfold Span.Proper at first second
  rw [Span.touches_iff]
  constructor
  · intro meets
    refine ⟨2 * max a.start b.start, ⟨?_, ?_⟩, ⟨?_, ?_⟩⟩ <;> omega
  · intro common
    obtain ⟨k, ⟨lower, upper⟩, lower', upper'⟩ := common
    omega

theorem met_iff_reached (proper : r.Proper) :
    (∃ t ∈ l, t.Proper ∧ t.touches r = true) ↔ ∃ k, ListReaches l k ∧ r.Reaches k := by
  constructor
  · intro met
    obtain ⟨t, member, own, meets⟩ := met
    obtain ⟨k, first, second⟩ := (touches_iff_reaches own proper).mp meets
    exact ⟨k, ⟨t, member, first⟩, second⟩
  · intro common
    obtain ⟨k, ⟨t, member, first⟩, second⟩ := common
    have own := reaches_proper first
    exact ⟨t, member, own, (touches_iff_reaches own proper).mpr ⟨k, first, second⟩⟩

theorem intersects_iff : s.intersects r = true ↔ ∃ t ∈ s.spans, t.touches r = true := by
  simp [intersects]

theorem ofList_intersects (proper : r.Proper) :
    (ofList l).intersects r = true ↔ ∃ t ∈ l, t.Proper ∧ t.touches r = true := by
  have own := (ofList_canonical l).2
  have stored : (∃ t ∈ (ofList l).spans, t.touches r = true) ↔
      ∃ t ∈ (ofList l).spans, t.Proper ∧ t.touches r = true := by
    refine exists_congr fun t => and_congr_right fun member => ?_
    exact (and_iff_right (own t member)).symm
  rw [intersects_iff, stored, met_iff_reached proper, met_iff_reached proper]
  simp only [ofList_reaches]

def hullOf (l : List Span) : Option Span := do
  let start ← (l.map (·.start)).min?
  let stop ← (l.map (·.stop)).max?
  some ⟨start, stop⟩

theorem hullOf_eq {h : Span} (start : ∃ s ∈ l, s.start = h.start) (stop : ∃ s ∈ l, s.stop = h.stop)
    (bounds : ∀ s ∈ l, h.start ≤ s.start ∧ s.stop ≤ h.stop) : hullOf l = some h := by
  have least : (l.map (·.start)).min? = some h.start :=
    List.min?_eq_some_iff.mpr ⟨List.mem_map.mpr start, by simpa using fun s member =>
      (bounds s member).1⟩
  have greatest : (l.map (·.stop)).max? = some h.stop :=
    List.max?_eq_some_iff.mpr ⟨List.mem_map.mpr stop, by simpa using fun s member =>
      (bounds s member).2⟩
  rw [hullOf, least, greatest]
  rfl

theorem ofList_hull (l : List Span) :
    (ofList l).hull? = hullOf (l.filter fun r => r.start ≤ r.stop) := by
  have members (r : Span) (proper : r.Proper) :
      r ∈ l ↔ r ∈ l.filter fun r => r.start ≤ r.stop := by
    rw [List.mem_filter, decide_eq_true_eq]
    exact (and_iff_left proper).symm
  rw [ofList_eq_iff.mpr (covered_of_mem members)]
  generalize kept : l.filter (fun r => r.start ≤ r.stop) = m
  cases m with
  | nil => rfl
  | cons r rest =>
    have proper : ∀ s ∈ r :: rest, Span.Proper s := by
      intro s member
      rw [← kept, List.mem_filter, decide_eq_true_eq] at member
      exact member.2
    obtain ⟨h, whole, start, stop, bounds⟩ := hull_bounds proper (List.cons_ne_nil r rest)
    rw [whole, hullOf_eq start stop bounds]

-- One member for each block of inserted spans, and the answers that follow from these.
structure Keeps (s : SpanSet) (l : List Span) : Prop where
  apart : s.spans.Pairwise fun a b => a.stop < b.start
  proper : ∀ r ∈ s.spans, r.start ≤ r.stop
  points : covered s.spans = covered l
  blocks : ∀ r, s.Holds r ↔ InBlock l r
  asked : ∀ r, s.intersects? r = some (s.intersects r)
  meets : ∀ r, s.intersects r = true ↔ ∃ t ∈ s.spans, t.start ≤ r.stop ∧ r.start ≤ t.stop
  met : ∀ r, r.Proper → (s.intersects r = true ↔ ∃ t ∈ l, t.Proper ∧ t.touches r = true)
  whole : s.hull? = hullOf (l.filter fun r => r.start ≤ r.stop)

theorem ofList_keeps (l : List Span) : (ofList l).Keeps l where
  apart := (ofList_canonical l).1
  proper := (ofList_canonical l).2
  points := covered_eq_iff.mpr fun _ => ofList_reaches l
  blocks := ofList_holds_iff l
  asked := intersects?_eq (ofList_canonical l)
  meets r := by
    simp only [intersects_iff, Span.touches_iff, and_comm]
  met _ proper := ofList_intersects proper
  whole := ofList_hull l

inductive Recipe
  | empty
  | clear (x : Recipe)
  | insert (x : Recipe) (r : Span)
  | union (x y : Recipe)
  | ofSpan (r : Span)
  | ofList (l : List Span)

def insertAll? (s : SpanSet) (l : List Span) : Option SpanSet := l.foldlM insert? s

theorem insertAll?_eq (canonical : Canonical s.spans) : s.insertAll? l = some (l.foldl insert s) := by
  induction l generalizing s with
  | nil => rfl
  | cons r rest ih =>
    have others := ih (s := s.insert r) (insert_canonical canonical)
    unfold insertAll? at others ⊢
    rw [List.foldlM_cons, insert?_eq canonical, Option.bind_eq_bind, Option.bind_some, others,
      List.foldl_cons]

namespace Recipe

def build : Recipe → SpanSet
  | empty => .empty
  | clear _ => .empty
  | insert x r => x.build.insert r
  | union x y => x.build.union y.build
  | ofSpan r => .ofSpan r
  | ofList l => .ofList l

-- The same with every place found by halving.
def build? : Recipe → Option SpanSet
  | empty => some .empty
  | clear x => do
    let _ ← x.build?
    some .empty
  | insert x r => do
    let s ← x.build?
    s.insert? r
  | union x y => do
    let s ← x.build?
    let t ← y.build?
    s.insertAll? t.spans
  | ofSpan r => SpanSet.empty.insert? r
  | ofList l => SpanSet.empty.insertAll? l

def entered : Recipe → List Span
  | empty => []
  | clear _ => []
  | insert x r => x.entered ++ [r]
  | union x y => x.entered ++ y.entered
  | ofSpan r => [r]
  | ofList l => l

variable (x y z : Recipe)

theorem build_canonical : Canonical x.build.spans := by
  induction x with
  | empty => exact empty_canonical
  | clear x => exact empty_canonical
  | insert x r ih => exact insert_canonical ih
  | union x y ih => exact insertAll_canonical ih
  | ofSpan r => exact insert_canonical empty_canonical
  | ofList l => exact ofList_canonical l

theorem build_reaches : ListReaches x.build.spans k ↔ ListReaches x.entered k := by
  induction x with
  | empty => rfl
  | clear x => rfl
  | insert x r ih =>
    rw [build, entered, insert_reaches, ih, listReaches_append, or_comm]
    simp
  | union x y first second =>
    rw [build, entered, SpanSet.union, insertAll_reaches, first, second, listReaches_append,
      or_comm]
  | ofSpan r =>
    rw [build, entered, SpanSet.ofSpan, insert_reaches]
    simp [SpanSet.empty]
  | ofList l => exact ofList_reaches l

theorem build_eq : x.build = .ofList x.entered :=
  eq_of_reaches x.build_canonical (ofList_canonical _) fun k => by
    rw [build_reaches, ofList_reaches]

theorem build?_eq : x.build? = some x.build := by
  induction x with
  | empty => rfl
  | clear x ih => rw [build?, ih]; rfl
  | insert x r ih =>
    rw [build?, ih]
    exact insert?_eq x.build_canonical r
  | union x y first second =>
    rw [build?, first, second]
    exact insertAll?_eq x.build_canonical
  | ofSpan r => exact insert?_eq empty_canonical r
  | ofList l => exact insertAll?_eq empty_canonical

theorem build_keeps : x.build.Keeps x.entered := by
  rw [build_eq]
  exact ofList_keeps x.entered

theorem build_eq_iff : x.build = y.build ↔ covered x.entered = covered y.entered := by
  rw [build_eq, build_eq, ofList_eq_iff]

-- However sets are built, no place is missed and two of them are the same exactly if the same points
-- were entered; so neither order nor repetition counts, and union is a join.
theorem build_algebra :
    x.build? = some x.build ∧ x.build.Keeps x.entered ∧
    (x.build = y.build ↔ covered x.entered = covered y.entered) ∧
    ((∀ r : Span, r.Proper → (r ∈ x.entered ↔ r ∈ y.entered)) → x.build = y.build) ∧
    (x.union y).build = (y.union x).build ∧
    ((x.union y).union z).build = (x.union (y.union z)).build ∧
    (x.union x).build = x.build := by
  refine ⟨x.build?_eq, x.build_keeps, build_eq_iff x y, ?_, ?_, ?_, ?_⟩
  · intro same
    exact (build_eq_iff x y).mpr (covered_of_mem same)
  · rw [build_eq_iff]
    apply covered_of_mem
    intro r _
    simp only [entered, List.mem_append, or_comm]
  · rw [build_eq_iff]
    simp only [entered, List.append_assoc]
  · rw [build_eq_iff]
    apply covered_of_mem
    intro r _
    simp only [entered, List.mem_append, or_self]

end Recipe

end SpanSet

end LiveHighlight
