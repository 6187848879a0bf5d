import LiveHighlight.Highlight

-- What comes out of a stable sort, told by order alone: the members it was given, the members it
-- does not tell apart in the sequence in which they came, and no other list like that.

namespace LiveHighlight

namespace Order

variable {α : Type} {le : α → α → Bool} {l k : List α}

def alike (le : α → α → Bool) (a b : α) : Bool := le a b && le b a

theorem alike_iff {a b : α} : alike le a b = true ↔ le a b = true ∧ le b a = true :=
  Bool.and_eq_true_iff

section Ordered

variable (total : ∀ a b, le a b || le b a) (chained : ∀ a b c, le a b → le b c → le a c)

include total in
theorem le_self (a : α) : le a a = true := by
  have either := total a a
  rwa [Bool.or_self] at either

include total in
theorem le_of_behind {a b : α} (behind : le a b ≠ true) : le b a = true := by
  have either := total a b
  rw [Bool.or_eq_true] at either
  exact either.resolve_left behind

include chained in
theorem place_alike (key new : α) (l : List α) :
    (place le new l).filter (alike le key) = (new :: l).filter (alike le key) := by
  induction l with
  | nil => rfl
  | cons a rest ih =>
    simp only [place]
    split
    · rfl
    · rename_i behind
      rw [List.filter_cons, ih]
      by_cases own : alike le key new = true
      · have apart : ¬ alike le key a = true := by
          intro same
          rw [alike_iff] at own same
          exact behind (chained _ _ _ own.2 same.1)
        simp only [List.filter_cons, if_neg apart]
      · simp only [List.filter_cons, if_neg own]

include chained in
theorem sort_alike (key : α) (l : List α) :
    (sort le l).filter (alike le key) = l.filter (alike le key) := by
  induction l with
  | nil => rfl
  | cons a rest ih =>
    rw [sort, place_alike chained, List.filter_cons, List.filter_cons, ih]

include total in
theorem sorted_head {a b : α} (ordered : (a :: l).Pairwise (le · ·))
    (ordered' : (b :: k).Pairwise (le · ·))
    (same : ∀ key, (a :: l).filter (alike le key) = (b :: k).filter (alike le key)) : a = b := by
  have self (x : α) : alike le x x = true := alike_iff.mpr ⟨le_self total x, le_self total x⟩
  have listed : ∀ x, x ∈ a :: l ↔ x ∈ b :: k := by
    intro x
    have members := congrArg (x ∈ ·) (same x)
    simpa only [List.mem_filter, self, and_true, eq_iff_iff] using members
  have front (x : α) (member : x ∈ a :: l) : le a x = true := by
    rcases List.mem_cons.mp member with rfl | later
    · exact le_self total x
    · exact (List.pairwise_cons.mp ordered).1 x later
  have front' (x : α) (member : x ∈ b :: k) : le b x = true := by
    rcases List.mem_cons.mp member with rfl | later
    · exact le_self total x
    · exact (List.pairwise_cons.mp ordered').1 x later
  have kin : alike le a b = true :=
    alike_iff.mpr ⟨front b ((listed b).mpr (by simp)), front' a ((listed a).mp (by simp))⟩
  have heads := congrArg List.head? (same a)
  rw [List.filter_cons_of_pos (self a), List.filter_cons_of_pos kin] at heads
  exact Option.some.inj heads

include total in
-- A list in order is known by its members of each kind.
theorem sorted_unique (ordered : l.Pairwise (le · ·)) (ordered' : k.Pairwise (le · ·))
    (same : ∀ key, l.filter (alike le key) = k.filter (alike le key)) : l = k := by
  have self (x : α) : alike le x x = true := alike_iff.mpr ⟨le_self total x, le_self total x⟩
  induction l generalizing k with
  | nil =>
    cases k with
    | nil => rfl
    | cons b k =>
      have own := same b
      rw [List.filter_cons_of_pos (self b)] at own
      cases own
  | cons a l ih =>
    cases k with
    | nil =>
      have own := same a
      rw [List.filter_cons_of_pos (self a)] at own
      cases own
    | cons b k =>
      cases sorted_head total ordered ordered' same
      refine congrArg (a :: ·) (ih ordered.of_cons ordered'.of_cons fun key => ?_)
      have tails := same key
      rw [List.filter_cons, List.filter_cons] at tails
      split at tails
      · exact List.tail_eq_of_cons_eq tails
      · exact tails

include total chained in
theorem place_merge (new : α) (l k : List α) :
    place le new (l.merge k le) = (place le new l).merge k le := by
  induction l generalizing k with
  | nil =>
    rw [List.nil_merge]
    induction k with
    | nil => rw [List.merge_right]
    | cons z k ih =>
      rw [place, place, List.cons_merge_cons]
      split
      · rw [List.nil_merge]
      · rw [ih, place]
  | cons y l ih =>
    induction k with
    | nil => rw [List.merge_right, List.merge_right]
    | cons z k ih' =>
      rw [List.cons_merge_cons]
      by_cases first : le new y = true
      · have whole : place le new (y :: l) = new :: y :: l := if_pos first
        rw [whole, List.cons_merge_cons]
        by_cases left : le y z = true
        · rw [if_pos left, if_pos (chained _ _ _ first left), place, if_pos first,
            List.cons_merge_cons, if_pos left]
        · rw [if_neg left, place]
          split
          · rw [List.cons_merge_cons, if_neg left]
          · rw [ih', whole]
      · have whole : place le new (y :: l) = y :: place le new l := if_neg first
        rw [whole, List.cons_merge_cons]
        by_cases left : le y z = true
        · rw [if_pos left, if_pos left, place, if_neg first, ih]
        · have late : le new z ≠ true := fun early =>
            left (chained _ _ _ (le_of_behind total first) early)
          rw [if_neg left, if_neg left, place, if_neg late, ih', whole]

include total chained in
theorem sort_append (l k : List α) : sort le (l ++ k) = (sort le l).merge (sort le k) le := by
  induction l with
  | nil => rw [List.nil_append, sort, List.nil_merge]
  | cons a l ih => rw [List.cons_append, sort, sort, ih, place_merge total chained]

end Ordered

end Order

namespace Highlight

variable {a b : Highlight} {l given : List Highlight}

theorem le_iff : le a b = true ↔ a.span.start < b.span.start ∨
    (a.span.start = b.span.start ∧ a.span.length ≤ b.span.length) := by
  simp [le]

theorem le_total (a b : Highlight) : (le a b || le b a) = true := by
  rw [Bool.or_eq_true, le_iff, le_iff]
  omega

theorem le_trans (a b c : Highlight) (first : le a b = true) (second : le b c = true) :
    le a c = true := by
  rw [le_iff] at first second ⊢
  omega

def placedAt (start length : Nat) (h : Highlight) : Bool :=
  h.span.start == start && h.span.length == length

theorem alike_placed (key : Highlight) :
    Order.alike le key = placedAt key.span.start key.span.length := by
  funext h
  rw [Bool.eq_iff_iff, Order.alike_iff, le_iff, le_iff, placedAt, Bool.and_eq_true, beq_iff_eq,
    beq_iff_eq]
  omega

-- By start, then by length, and those of one place in the sequence in which they were given.
structure Arranged (given l : List Highlight) : Prop where
  perm : l.Perm given
  ordered : l.Pairwise fun a b => a.span.start < b.span.start ∨
    (a.span.start = b.span.start ∧ a.span.length ≤ b.span.length)
  stable : ∀ start length, l.filter (placedAt start length) = given.filter (placedAt start length)

theorem sort_arranged (given : List Highlight) : Arranged given (Order.sort le given) := by
  refine ⟨Order.sort_perm given, ?_, fun start length => ?_⟩
  · exact (Order.sort_sorted le_total le_trans given).imp le_iff.mp
  · -- the place is that of some highlight of this start and length
    have same := Order.sort_alike le_trans (⟨.keywords, ⟨start, start + length⟩⟩ : Highlight) given
    simpa [alike_placed, Span.length] using same

theorem arranged_iff : Arranged given l ↔ l = Order.sort le given := by
  constructor
  · intro arranged
    have own := sort_arranged given
    refine Order.sorted_unique le_total (arranged.ordered.imp le_iff.mpr)
      (own.ordered.imp le_iff.mpr) fun key => ?_
    rw [alike_placed, arranged.stable, own.stable]
  · rintro rfl
    exact sort_arranged given

def mapped (captures : List Capture) (category? : String → Option Category) : List Highlight :=
  (captures.filter fun c => c.span.start < c.span.stop).filterMap fun c =>
    (category? c.name).map fun k => ⟨k, c.span⟩

theorem ofCaptures_mapped (captures : List Capture) (category? : String → Option Category) :
    ofCaptures captures category? = Order.sort le (mapped captures category?) := by
  have each : (fun c : Capture => if c.span.isEmpty then none else
      (category? c.name).map fun k => (⟨k, c.span⟩ : Highlight)) =
      fun c => if c.span.start < c.span.stop then
        (category? c.name).map fun k => ⟨k, c.span⟩ else none := by
    funext c
    have empty : c.span.isEmpty = true ↔ ¬ c.span.start < c.span.stop := by
      rw [Span.isEmpty, decide_eq_true_eq, Nat.not_lt]
    simp only [empty, ite_not]
  simp only [ofCaptures, mapped, List.filterMap_filter, decide_eq_true_eq, each]

-- The highlights of some captures are the one list that has all the mapped captures and nothing
-- else, in order, those of one place as they came.
theorem captures_arranged (captures more : List Capture) (category? : String → Option Category) :
    (∀ l, Arranged (mapped captures category?) l ↔ l = ofCaptures captures category?) ∧
    ofCaptures (captures ++ more) category? =
      (ofCaptures captures category?).merge (ofCaptures more category?) le := by
  constructor
  · intro l
    rw [ofCaptures_mapped]
    exact arranged_iff
  · have rows : mapped (captures ++ more) category? =
        mapped captures category? ++ mapped more category? := by
      simp [mapped]
    simp only [ofCaptures_mapped, rows]
    exact Order.sort_append le_total le_trans _ _

end Highlight

end LiveHighlight
