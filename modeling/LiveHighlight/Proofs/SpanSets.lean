import LiveHighlight.SpanSet

-- A sorted set of spans is determined by what it reaches. Reach is asked of doubled offsets: an odd
-- one stands for the byte behind an offset, so that spans which touch are told from others.

namespace LiveHighlight

namespace Span

def Proper (s : Span) : Prop := s.start ≤ s.stop

def Reaches (s : Span) (k : Nat) : Prop := 2 * s.start ≤ k ∧ k ≤ 2 * s.stop

theorem hull_reaches {a b : Span} (meets : b.start ≤ a.stop) (met : a.start ≤ b.stop) :
    (a.hull b).Reaches k ↔ a.Reaches k ∨ b.Reaches k := by
  simp only [Reaches, hull]
  omega

theorem hull_proper {a b : Span} (proper : a.Proper) : (a.hull b).Proper := by
  unfold Proper at proper ⊢
  simp only [hull]
  omega

theorem touches_iff {a b : Span} : a.touches b = true ↔ b.start ≤ a.stop ∧ a.start ≤ b.stop := by
  simp [touches]

def Covers (a b : Span) : Prop := a.start ≤ b.start ∧ b.stop ≤ a.stop

theorem Covers.trans {a b c : Span} (first : a.Covers b) (second : b.Covers c) : a.Covers c :=
  ⟨Nat.le_trans first.1 second.1, Nat.le_trans second.2 first.2⟩

end Span

namespace SpanSet

def Canonical (l : List Span) : Prop :=
  l.Pairwise (fun a b => a.stop < b.start) ∧ ∀ s ∈ l, s.Proper

def ListReaches (l : List Span) (k : Nat) : Prop := ∃ s ∈ l, s.Reaches k

variable {new r : Span} {l rest : List Span} {s : SpanSet} {k n : Nat}

@[simp] theorem listReaches_nil : ¬ ListReaches [] k := by simp [ListReaches]

@[simp] theorem listReaches_cons :
    ListReaches (r :: rest) k ↔ r.Reaches k ∨ ListReaches rest k := by
  simp [ListReaches]

theorem Canonical.tail (canonical : Canonical (r :: rest)) : Canonical rest :=
  ⟨(List.pairwise_cons.mp canonical.1).2, fun s member => canonical.2 s (by simp [member])⟩

theorem Canonical.head (canonical : Canonical (r :: rest)) : r.Proper := canonical.2 r (by simp)

theorem place_bound (lower : n ≤ new.start) (bound : ∀ s ∈ l, n ≤ s.start) :
    ∀ s ∈ place new l, n ≤ s.start := by
  induction l generalizing new with
  | nil => simpa [place] using lower
  | cons r rest ih =>
    have first := bound r (by simp)
    have others : ∀ s ∈ rest, n ≤ s.start := fun s member => bound s (by simp [member])
    simp only [place]
    split
    · intro s member
      rcases List.mem_cons.mp member with rfl | later
      · exact first
      · exact ih lower others s later
    · split
      · intro s member
        rcases List.mem_cons.mp member with rfl | later
        · exact lower
        · exact bound s later
      · apply ih _ others
        simp only [Span.hull]
        omega

theorem place_canonical (canonical : Canonical l) (proper : new.Proper) :
    Canonical (place new l) := by
  induction l generalizing new with
  | nil => exact ⟨List.pairwise_singleton _ _, by simpa [place] using proper⟩
  | cons r rest ih =>
    have tail := canonical.tail
    have apart := (List.pairwise_cons.mp canonical.1).1
    simp only [place]
    split
    · rename_i before
      obtain ⟨sorted, all⟩ := ih tail proper
      refine ⟨List.pairwise_cons.mpr ⟨?_, sorted⟩, ?_⟩
      · exact place_bound before apart
      · intro s member
        rcases List.mem_cons.mp member with rfl | later
        · exact canonical.head
        · exact all s later
    · split
      · rename_i behind
        refine ⟨List.pairwise_cons.mpr ⟨?_, canonical.1⟩, ?_⟩
        · intro s member
          rcases List.mem_cons.mp member with rfl | later
          · exact behind
          · have following := apart s later
            have head : r.start ≤ r.stop := canonical.head
            omega
        · intro s member
          rcases List.mem_cons.mp member with rfl | later
          · exact proper
          · exact canonical.2 s later
      · exact ih tail (Span.hull_proper proper)

theorem place_reaches : ListReaches (place new l) k ↔ new.Reaches k ∨ ListReaches l k := by
  induction l generalizing new with
  | nil => simp [place]
  | cons r rest ih =>
    simp only [place]
    split
    · rw [listReaches_cons, ih, listReaches_cons]
      exact or_left_comm
    · split
      · rw [listReaches_cons]
      · rename_i reached near
        rw [ih, listReaches_cons, ← or_assoc, Span.hull_reaches (by omega) (by omega)]

theorem Canonical.apart (canonical : Canonical (r :: rest)) : ∀ s ∈ rest, r.stop < s.start :=
  (List.pairwise_cons.mp canonical.1).1

theorem Canonical.parted {a b : Span} (canonical : Canonical l) (first : a ∈ l) (second : b ∈ l) :
    a = b ∨ a.stop < b.start ∨ b.stop < a.start := by
  induction l with
  | nil => cases first
  | cons r rest ih =>
    rcases List.mem_cons.mp first with rfl | later
    · rcases List.mem_cons.mp second with rfl | other
      · exact .inl rfl
      · exact .inr (.inl (canonical.apart b other))
    · rcases List.mem_cons.mp second with rfl | other
      · exact .inr (.inr (canonical.apart a later))
      · exact ih canonical.tail later other

theorem place_holds (new : Span) (l : List Span) :
    ∃ s ∈ place new l, s.start ≤ new.start ∧ new.stop ≤ s.stop := by
  induction l generalizing new with
  | nil => exact ⟨new, by simp [place], by omega⟩
  | cons r rest ih =>
    simp only [place]
    split
    · obtain ⟨s, member, held⟩ := ih new
      exact ⟨s, by simp [member], held⟩
    · split
      · exact ⟨new, by simp, by omega⟩
      · obtain ⟨s, member, held⟩ := ih (new.hull r)
        simp only [Span.hull] at held
        exact ⟨s, member, by omega⟩

theorem head_reaches_start (canonical : Canonical (r :: rest)) :
    ListReaches (r :: rest) (2 * r.start) := by
  have proper : r.start ≤ r.stop := canonical.head
  exact listReaches_cons.mpr (.inl ⟨by omega, by omega⟩)

-- The first span reaches the least place of all, and alone what lies up to just behind it.
theorem reached_from_head (canonical : Canonical (r :: rest))
    (reached : ListReaches (r :: rest) k) :
    2 * r.start ≤ k ∧ (k ≤ 2 * r.stop + 1 → k ≤ 2 * r.stop) := by
  have proper : r.start ≤ r.stop := canonical.head
  rcases listReaches_cons.mp reached with own | other
  · exact ⟨own.1, fun _ => own.2⟩
  · obtain ⟨s, member, lower, upper⟩ := other
    have following := canonical.apart s member
    exact ⟨by omega, by omega⟩

theorem tail_reaches (canonical : Canonical (r :: rest)) :
    ListReaches rest k ↔ ListReaches (r :: rest) k ∧ 2 * r.stop < k := by
  constructor
  · intro reached
    refine ⟨listReaches_cons.mpr (.inr reached), ?_⟩
    obtain ⟨s, member, lower, -⟩ := reached
    have following := canonical.apart s member
    omega
  · intro reached
    obtain ⟨reached, later⟩ := reached
    rcases listReaches_cons.mp reached with own | other
    · have upper := own.2
      omega
    · exact other

theorem start_le_of_reaches {a b : List Span} {t : Span} (first : Canonical (r :: a))
    (second : Canonical (t :: b))
    (same : ∀ k, ListReaches (r :: a) k ↔ ListReaches (t :: b) k) : r.start ≤ t.start := by
  have reached := (same _).mpr (head_reaches_start second)
  have lower := (reached_from_head first reached).1
  omega

theorem stop_le_of_reaches {a b : List Span} {t : Span} (first : Canonical (r :: a))
    (same : ∀ k, ListReaches (r :: a) k ↔ ListReaches (t :: b) k) (starts : r.start = t.start) :
    t.stop ≤ r.stop := by
  have proper : r.start ≤ r.stop := first.head
  by_cases longer : r.stop < t.stop
  · have reached : ListReaches (t :: b) (2 * r.stop + 1) :=
      listReaches_cons.mpr (.inl ⟨by omega, by omega⟩)
    have upper := (reached_from_head first ((same _).mpr reached)).2 (Nat.le_refl _)
    omega
  · omega

theorem canonical_unique {a b : List Span} (first : Canonical a) (second : Canonical b)
    (same : ∀ k, ListReaches a k ↔ ListReaches b k) : a = b := by
  induction a generalizing b with
  | nil =>
    cases b with
    | nil => rfl
    | cons t others =>
      exact absurd ((same _).mpr (head_reaches_start second)) listReaches_nil
  | cons r rest ih =>
    cases b with
    | nil => exact absurd ((same _).mp (head_reaches_start first)) listReaches_nil
    | cons t others =>
      have back := fun k => (same k).symm
      have starts : r.start = t.start :=
        Nat.le_antisymm (start_le_of_reaches first second same)
          (start_le_of_reaches second first back)
      have stops : r.stop = t.stop :=
        Nat.le_antisymm (stop_le_of_reaches second back starts.symm)
          (stop_le_of_reaches first same starts)
      have heads : r = t := by
        cases r
        cases t
        simp_all
      subst heads
      have tails : ∀ k, ListReaches rest k ↔ ListReaches others k := by
        intro k
        rw [tail_reaches first, tail_reaches second, same]
      rw [ih first.tail second.tail tails]

-- The same facts for sets. A reversed span enters nothing.

theorem insert_canonical (canonical : Canonical s.spans) : Canonical (s.insert new).spans := by
  unfold insert
  split
  · exact canonical
  · exact place_canonical canonical (by unfold Span.Proper; omega)

theorem reaches_proper (reached : r.Reaches k) : r.Proper := by
  unfold Span.Proper
  have lower := reached.1
  have upper := reached.2
  omega

theorem insert_reaches :
    ListReaches (s.insert new).spans k ↔ new.Reaches k ∨ ListReaches s.spans k := by
  unfold insert
  split
  · rename_i reversed
    have nothing : ¬ new.Reaches k := fun reached =>
      Nat.not_lt.mpr (reaches_proper reached) reversed
    exact (or_iff_right nothing).symm
  · exact place_reaches

theorem insertAll_canonical (canonical : Canonical s.spans) :
    Canonical (l.foldl insert s).spans := by
  induction l generalizing s with
  | nil => exact canonical
  | cons r rest ih => exact ih (insert_canonical canonical)

theorem insertAll_reaches :
    ListReaches (l.foldl insert s).spans k ↔ ListReaches l k ∨ ListReaches s.spans k := by
  induction l generalizing s with
  | nil => simp
  | cons r rest ih =>
    rw [List.foldl_cons, ih, insert_reaches, listReaches_cons, or_left_comm, ← or_assoc]

theorem empty_canonical : Canonical empty.spans := ⟨.nil, by simp [empty]⟩

theorem ofList_canonical (l : List Span) : Canonical (ofList l).spans :=
  insertAll_canonical empty_canonical

theorem ofList_reaches (l : List Span) : ListReaches (ofList l).spans k ↔ ListReaches l k := by
  rw [ofList, insertAll_reaches]
  simp [empty]

theorem stop_le_last {last : Span} (canonical : Canonical l) (ends : l.getLast? = some last) :
    ∀ s ∈ l, s.stop ≤ last.stop := by
  obtain ⟨front, rfl⟩ := List.getLast?_eq_some_iff.mp ends
  intro s member
  have proper : last.start ≤ last.stop := canonical.2 last (by simp)
  rcases List.mem_append.mp member with first | own
  · have before := (List.pairwise_append.mp canonical.1).2.2 s first last (by simp)
    omega
  · cases List.mem_singleton.mp own
    exact Nat.le_refl _

theorem hull_bounds (proper : ∀ r ∈ l, Span.Proper r) (held : l ≠ []) :
    ∃ h, (ofList l).hull? = some h ∧ (∃ s ∈ l, s.start = h.start) ∧ (∃ s ∈ l, s.stop = h.stop) ∧
      ∀ s ∈ l, h.start ≤ s.start ∧ s.stop ≤ h.stop := by
  have canonical := ofList_canonical l
  have reaches (k : Nat) := ofList_reaches (k := k) l
  unfold hull?
  generalize (ofList l).spans = c at canonical reaches
  cases c with
  | nil =>
    obtain ⟨s, rest, rfl⟩ := List.exists_cons_of_ne_nil held
    have own : s.start ≤ s.stop := proper s (by simp)
    have nothing := (reaches (2 * s.start)).mpr ⟨s, by simp, Nat.le_refl _, by omega⟩
    simp at nothing
  | cons first rest =>
    cases ends : (first :: rest).getLast? with
    | none => simp at ends
    | some last =>
      have listed := List.mem_of_getLast? ends
      have last_proper : last.start ≤ last.stop := canonical.2 last listed
      have bounds : ∀ s ∈ l, first.start ≤ s.start ∧ s.stop ≤ last.stop := by
        intro s member
        have own : s.start ≤ s.stop := proper s member
        have start := (reaches (2 * s.start)).mpr ⟨s, member, Nat.le_refl _, by omega⟩
        obtain ⟨t, among, lower, upper⟩ :=
          (reaches (2 * s.stop)).mpr ⟨s, member, by omega, Nat.le_refl _⟩
        have lowest := (reached_from_head canonical start).1
        have highest := stop_le_last canonical ends t among
        omega
      obtain ⟨s, member, lower, upper⟩ := (reaches _).mp (head_reaches_start canonical)
      obtain ⟨t, member', lower', upper'⟩ :=
        (reaches (2 * last.stop)).mp ⟨last, listed, by omega, Nat.le_refl _⟩
      have start := bounds s member
      have stop := bounds t member'
      refine ⟨⟨first.start, last.stop⟩, rfl, ⟨s, member, ?_⟩, ⟨t, member', ?_⟩, bounds⟩
      · dsimp only
        omega
      · dsimp only
        omega

theorem place_covers (member : r ∈ l) (new : Span) : ∃ m ∈ place new l, m.Covers r := by
  induction l generalizing new with
  | nil => cases member
  | cons first rest ih =>
    simp only [place]
    split
    · rcases List.mem_cons.mp member with rfl | later
      · exact ⟨r, by simp, Nat.le_refl _, Nat.le_refl _⟩
      · obtain ⟨m, held, covers⟩ := ih later new
        exact ⟨m, by simp [held], covers⟩
    · split
      · exact ⟨r, by simp [member], Nat.le_refl _, Nat.le_refl _⟩
      · rcases List.mem_cons.mp member with rfl | later
        · obtain ⟨m, held, lower, upper⟩ := place_holds (new.hull r) rest
          simp only [Span.hull] at lower upper
          refine ⟨m, held, ?_, ?_⟩
          · omega
          · omega
        · exact ih later _

def Holds (s : SpanSet) (r : Span) : Prop := ∃ m ∈ s.spans, m.Covers r

theorem insert_holds (held : s.Holds r) (new : Span) : (s.insert new).Holds r := by
  obtain ⟨m, member, covers⟩ := held
  unfold insert
  split
  · exact ⟨m, member, covers⟩
  · obtain ⟨n, placed, wider⟩ := place_covers member new
    exact ⟨n, placed, wider.trans covers⟩

theorem insert_own (proper : new.Proper) : (s.insert new).Holds new := by
  unfold Span.Proper at proper
  rw [insert, if_neg (by omega)]
  exact place_holds new s.spans

theorem insertAll_holds (proper : r.Proper) (why : r ∈ l ∨ s.Holds r) :
    (l.foldl insert s).Holds r := by
  induction l generalizing s with
  | nil => exact why.resolve_left List.not_mem_nil
  | cons first rest ih =>
    refine ih ?_
    rcases why with member | held
    · rcases List.mem_cons.mp member with rfl | later
      · exact .inr (insert_own proper)
      · exact .inl later
    · exact .inr (insert_holds held first)

structure Grows (a b : SpanSet) : Prop where
  canonical : Canonical a.spans → Canonical b.spans
  reaches : ∀ k, ListReaches a.spans k → ListReaches b.spans k

theorem Grows.refl (a : SpanSet) : Grows a a := ⟨id, fun _ => id⟩

theorem Grows.trans {a b c : SpanSet} (first : Grows a b) (second : Grows b c) : Grows a c :=
  ⟨second.canonical ∘ first.canonical, fun k => second.reaches k ∘ first.reaches k⟩

theorem insert_grows (s : SpanSet) (new : Span) : Grows s (s.insert new) :=
  ⟨insert_canonical, fun _ reached => insert_reaches.mpr (.inr reached)⟩

end SpanSet

end LiveHighlight
