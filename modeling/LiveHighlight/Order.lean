-- Sorting by an order of one's own. Members that the order does not tell apart keep the sequence
-- in which they came.

namespace LiveHighlight.Order

variable {α : Type} {le : α → α → Bool}

def place (le : α → α → Bool) (new : α) : List α → List α
  | [] => [new]
  | a :: rest => if le new a then new :: a :: rest else a :: place le new rest

-- Members enter from the last to the first, so that of equals the earlier one stays in front.
def sort (le : α → α → Bool) : List α → List α
  | [] => []
  | a :: rest => place le a (sort le rest)

theorem place_perm (new : α) (l : List α) : (place le new l).Perm (new :: l) := by
  induction l with
  | nil => exact .refl _
  | cons a rest ih =>
    simp only [place]
    split
    · exact .refl _
    · exact (ih.cons a).trans (.swap new a rest)

theorem sort_perm (l : List α) : (sort le l).Perm l := by
  induction l with
  | nil => exact .refl _
  | cons a rest ih => exact (place_perm a _).trans (ih.cons a)

theorem place_sorted (total : ∀ a b, le a b || le b a)
    (chained : ∀ a b c, le a b → le b c → le a c) (new : α) (l : List α)
    (sorted : l.Pairwise (le · ·)) : (place le new l).Pairwise (le · ·) := by
  induction l with
  | nil => exact List.pairwise_singleton _ _
  | cons a rest ih =>
    obtain ⟨first, others⟩ := List.pairwise_cons.mp sorted
    simp only [place]
    split
    · rename_i before
      refine List.pairwise_cons.mpr ⟨?_, sorted⟩
      intro b present
      rcases List.mem_cons.mp present with rfl | later
      · exact before
      · exact chained _ _ _ before (first b later)
    · rename_i behind
      refine List.pairwise_cons.mpr ⟨?_, ih others⟩
      intro b present
      rcases List.mem_cons.mp ((place_perm new rest).mem_iff.mp present) with rfl | later
      · have either := total a b
        simpa [behind] using either
      · exact first b later

theorem sort_sorted (total : ∀ a b, le a b || le b a)
    (chained : ∀ a b c, le a b → le b c → le a c) (l : List α) :
    (sort le l).Pairwise (le · ·) := by
  induction l with
  | nil => exact .nil
  | cons a rest ih => exact place_sorted total chained a _ ih

end LiveHighlight.Order
