import LiveHighlight.Proofs.SpanSets

-- Insertion once more by index, with places found by halving. On a sorted set this is plain
-- insertion, and no index is ever out of range.

namespace LiveHighlight.SpanSet

variable {p : Span → Bool} {l front back : List Span} {new r : Span} {s : SpanSet} {n : Nat}

-- Before the first index all members are of a kind, from the second on none is.
def halve? (p : Span → Bool) (l : List Span) (low high : Nat) : Option Nat :=
  if low < high then
    match l[low + (high - low) / 2]? with
    | none => none
    | some r =>
      if p r then halve? p l (low + (high - low) / 2 + 1) high
      else halve? p l low (low + (high - low) / 2)
  else some low
  termination_by high - low

def partition? (p : Span → Bool) (l : List Span) : Option Nat := halve? p l 0 l.length

def absorb (merged : Span) : List Span → Span × List Span
  | [] => (merged, [])
  | r :: rest => if r.start ≤ merged.stop then absorb (merged.hull r) rest else (merged, r :: rest)

def insert? (s : SpanSet) (new : Span) : Option SpanSet :=
  if new.stop < new.start then some s
  else do
    let first ← partition? (fun r => r.stop < new.start) s.spans
    let found := absorb new (s.spans.drop first)
    some ⟨s.spans.take first ++ found.1 :: found.2⟩

def intersects? (s : SpanSet) (r : Span) : Option Bool := do
  let first ← partition? (fun t => t.stop < r.start) s.spans
  some (s.spans[first]?.any fun t => t.start ≤ r.stop)

theorem halve?_eq (early : ∀ r ∈ front, p r = true) (late : ∀ r ∈ back, p r = false)
    {low high : Nat} (reached : low ≤ front.length) (left : front.length ≤ high)
    (within : high ≤ (front ++ back).length) :
    halve? p (front ++ back) low high = some front.length := by
  fun_induction halve? p (front ++ back) low high with
  | case1 low high more missing =>
    have beyond := List.getElem?_eq_none_iff.mp missing
    omega
  | case2 low high more r found kind ih =>
    apply ih _ left within
    by_cases inside : low + (high - low) / 2 < front.length
    · omega
    · rw [List.getElem?_append_right (by omega)] at found
      simp [late r (List.mem_of_getElem? found)] at kind
  | case3 low high more r found other ih =>
    apply ih reached _ (by omega)
    by_cases inside : low + (high - low) / 2 < front.length
    · rw [List.getElem?_append_left inside] at found
      exact absurd (early r (List.mem_of_getElem? found)) other
    · omega
  | case4 low high done => rw [show low = front.length by omega]

theorem partition?_eq (early : ∀ r ∈ front, p r = true) (late : ∀ r ∈ back, p r = false) :
    partition? p (front ++ back) = some front.length :=
  halve?_eq early late (Nat.zero_le _) (by simp) (Nat.le_refl _)

theorem Canonical.parts (canonical : Canonical l) (n : Nat) : ∃ front back, l = front ++ back ∧
    (∀ r ∈ front, r.stop < n) ∧ (∀ r ∈ back, n ≤ r.stop) := by
  induction l with
  | nil => exact ⟨[], [], rfl, by simp, by simp⟩
  | cons r rest ih =>
    obtain ⟨front, back, whole, early, late⟩ := ih canonical.tail
    by_cases before : r.stop < n
    · refine ⟨r :: front, back, by rw [whole, List.cons_append], ?_, late⟩
      intro s member
      rcases List.mem_cons.mp member with rfl | later
      · exact before
      · exact early s later
    · refine ⟨[], r :: rest, rfl, by simp, ?_⟩
      intro s member
      rcases List.mem_cons.mp member with rfl | later
      · omega
      · have following := canonical.apart s later
        have proper : s.start ≤ s.stop := canonical.2 s member
        omega

theorem Canonical.parted_at (canonical : Canonical l) (n : Nat) : ∃ front back, l = front ++ back ∧
    partition? (fun r => r.stop < n) l = some front.length ∧
    (∀ r ∈ front, r.stop < n) ∧ (∀ r ∈ back, n ≤ r.stop) := by
  obtain ⟨front, back, whole, early, late⟩ := canonical.parts n
  refine ⟨front, back, whole, ?_, early, late⟩
  rw [whole]
  exact partition?_eq (by simpa using early) (by simpa using late)

theorem place_append (early : ∀ r ∈ front, r.stop < new.start) :
    place new (front ++ back) = front ++ place new back := by
  induction front with
  | nil => rfl
  | cons r rest ih =>
    have others := ih fun s member => early s (by simp [member])
    rw [List.cons_append, place, if_pos (early r (by simp)), others, List.cons_append]

theorem place_absorbs (late : ∀ r ∈ l, new.start ≤ r.stop) :
    place new l = (absorb new l).1 :: (absorb new l).2 := by
  induction l generalizing new with
  | nil => rfl
  | cons r rest ih =>
    have first := late r (by simp)
    rw [place, absorb, if_neg (by omega)]
    by_cases meets : r.start ≤ new.stop
    · rw [if_neg (by omega), if_pos meets]
      apply ih
      intro s member
      have other := late s (by simp [member])
      simp only [Span.hull]
      omega
    · rw [if_pos (by omega), if_neg meets]

theorem insert?_eq (canonical : Canonical s.spans) (new : Span) :
    s.insert? new = some (s.insert new) := by
  unfold insert? insert
  split
  · rfl
  · obtain ⟨front, back, whole, found, early, late⟩ := canonical.parted_at new.start
    rw [found, whole, place_append early, place_absorbs late]
    simp

theorem Canonical.behind (canonical : Canonical (front ++ back)) : Canonical back :=
  ⟨(List.pairwise_append.mp canonical.1).2.1, fun s member => canonical.2 s (by simp [member])⟩

-- Of members that do not end before a span, all are out of its reach if the first one is.
theorem first_tells (canonical : Canonical l) (late : ∀ t ∈ l, r.start ≤ t.stop) :
    (l.head?.any fun t => t.start ≤ r.stop) = l.any (·.touches r) := by
  cases l with
  | nil => rfl
  | cons t rest =>
    have reaches : r.start ≤ t.stop := late t (by simp)
    by_cases meets : t.start ≤ r.stop
    · simp [Span.touches, meets, reaches]
    · have missed : (t :: rest).any (·.touches r) = false := by
        rw [List.any_eq_false]
        intro u member
        have proper : t.start ≤ t.stop := canonical.head
        have behind : t.start ≤ u.start := by
          rcases List.mem_cons.mp member with rfl | later
          · exact Nat.le_refl _
          · have following := canonical.apart u later
            omega
        rw [Span.touches_iff]
        omega
      rw [missed]
      simpa using meets

theorem intersects?_eq (canonical : Canonical s.spans) (r : Span) :
    s.intersects? r = some (s.intersects r) := by
  obtain ⟨front, back, whole, found, early, late⟩ := canonical.parted_at r.start
  have missed : front.any (·.touches r) = false := by
    rw [List.any_eq_false]
    intro t member
    have before := early t member
    rw [Span.touches_iff]
    omega
  rw [whole] at canonical
  have first : s.spans[front.length]? = back.head? := by
    rw [whole, List.getElem?_append_right (Nat.le_refl _), Nat.sub_self, List.head?_eq_getElem?]
  rw [intersects?, found, Option.bind_eq_bind, Option.bind_some, first,
    first_tells canonical.behind late, intersects, whole, List.any_append, missed, Bool.false_or]

end LiveHighlight.SpanSet
