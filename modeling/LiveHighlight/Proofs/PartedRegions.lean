import LiveHighlight.Proofs.Parting

-- The regions of a sweep over two texts that part behind a line terminator.

namespace LiveHighlight.Rules

open Pattern (Frame)

namespace Mark

variable {w : Window} {l : Delimiters} {index : Nat} {d : Delimiter} {m : Mark}

def Ordered (l : List Mark) : Prop := l.Pairwise fun m n => m.span.start ≤ n.span.start

theorem le_total (m n : Mark) : (le m n || le n m) = true := by
  simp only [le, Bool.or_eq_true, Bool.and_eq_true, decide_eq_true_eq, beq_iff_eq]
  omega

theorem le_trans (m n k : Mark) (first : le m n = true) (second : le n k = true) :
    le m k = true := by
  simp only [le, Bool.or_eq_true, Bool.and_eq_true, decide_eq_true_eq, beq_iff_eq] at *
  omega

theorem sorted_ordered (w : Window) (l : Delimiters) : Ordered (sorted w l) := by
  apply (Order.sort_sorted le_total le_trans (ofDelimiters w 0 l)).imp
  intro m n before
  simp only [le, Bool.or_eq_true, Bool.and_eq_true, decide_eq_true_eq, beq_iff_eq] at before
  omega

theorem Ordered.behind {a b : List Mark} {m c : Mark} (ordered : Ordered (a ++ m :: b))
    (later : c ∈ b) : m.span.start ≤ c.span.start :=
  (List.pairwise_cons.mp (List.pairwise_append.mp ordered).2.1).1 c later

theorem Stems.proper (from_d : Stems w index d m) : m.span.start ≤ m.span.stop := by
  cases from_d with
  | occurrence held found =>
    have stop := found.stop
    simp only [ofOccurrence, Occurrence.span]
    omega
  | lineEnd => exact Nat.le_refl _

end Mark

namespace Delimiters

variable {l : Delimiters} {w w' : Window} {f : Frame} {m m' : Mark} {marks a a' b b' : List Mark}
  {passing seek v n : Nat}

structure Marked (l : Delimiters) (w : Window) (r : Nat × Span) (m c : Mark) : Prop where
  opening : m ∈ Mark.sorted w l
  closing : c ∈ Mark.sorted w l
  opens : m.role.opens = true
  closes : c.role.closes = true
  own : c.delimiter = m.delimiter
  ordered : m.span.start ≤ c.span.start
  near : c.span.start ≤ reach l w m
  region : r = (m.delimiter, ⟨m.span.start, c.span.stop⟩)

theorem regionsFrom_marked {r : Nat × Span}
    (member : r ∈ regionsFrom l w passing seek (Mark.sorted w l)) : ∃ m c, Marked l w r m c := by
  obtain ⟨a, m, b, n, c, parts, opens, found, same⟩ := regionsFrom_closed member
  obtain ⟨x, y, inner, -, own, near⟩ := Mark.close?_parts found
  have sorted := Mark.sorted_ordered w l
  rw [parts] at sorted
  exact ⟨m, c, by simp [parts], by simp [parts, inner], opens, Mark.close?_closes found, own,
    sorted.behind (by simp [inner]), near, same⟩

theorem regionsFrom_start (bound : ∀ m ∈ marks, n ≤ m.span.start) :
    ∀ r ∈ regionsFrom l w passing seek marks, n ≤ r.2.start := by
  intro r member
  obtain ⟨m, opening, c, -, -, -, rfl⟩ := mem_regionsFrom member
  exact bound m opening

theorem regionsFrom_seek (ordered : Mark.Ordered marks)
    (proper : ∀ m ∈ marks, m.span.start ≤ m.span.stop) :
    ∀ r ∈ regionsFrom l w passing seek marks, seek ≤ r.2.start := by
  induction marks generalizing passing seek with
  | nil => simp [regionsFrom]
  | cons m rest ih =>
    obtain ⟨before, others⟩ := List.pairwise_cons.mp ordered
    have inner (passing seek : Nat) : ∀ r ∈ regionsFrom l w passing seek rest, seek ≤ r.2.start :=
      ih others fun n member => proper n (by simp [member])
    cases passing with
    | succ left => exact inner left seek
    | zero =>
      rcases idle_or_opens m seek with idle | ⟨opens, late⟩
      · rw [regionsFrom_idle idle]
        exact inner 0 seek
      · rw [regionsFrom_opened opens late]
        cases found : Mark.close? m.delimiter (reach l w m) 0 rest with
        | none => exact inner 0 seek
        | some closed =>
          obtain ⟨member, -, -⟩ := Mark.close?_found found
          intro r held
          rcases List.mem_cons.mp held with rfl | further
          · exact late
          · have behind := inner closed.1 closed.2.span.stop r further
            have first := before closed.2 member
            have second := proper closed.2 (by simp [member])
            omega

theorem regionsFrom_apart (ordered : Mark.Ordered marks)
    (proper : ∀ m ∈ marks, m.span.start ≤ m.span.stop) :
    Apart (regionsFrom l w passing seek marks) := by
  induction marks generalizing passing seek with
  | nil => exact .nil
  | cons m rest ih =>
    have others := (List.pairwise_cons.mp ordered).2
    have proper_rest : ∀ n ∈ rest, n.span.start ≤ n.span.stop :=
      fun n member => proper n (by simp [member])
    have inner (passing seek : Nat) : Apart (regionsFrom l w passing seek rest) :=
      ih others proper_rest
    cases passing with
    | succ left => exact inner left seek
    | zero =>
      rcases idle_or_opens m seek with idle | ⟨opens, late⟩
      · rw [regionsFrom_idle idle]
        exact inner 0 seek
      · rw [regionsFrom_opened opens late]
        cases Mark.close? m.delimiter (reach l w m) 0 rest with
        | none => exact inner 0 seek
        | some closed => exact .cons (regionsFrom_seek others proper_rest) (inner _ _)

theorem kin_near (same : f.left = f.left') (kin : List.Forall₂ f.Kin a a')
    (near : ∀ m ∈ a, m.span.start < v) : ∀ m ∈ a', m.span.start < v := by
  induction kin with
  | nil => simp
  | cons first others ih =>
    intro m member
    rcases List.mem_cons.mp member with rfl | later
    · have start := first.span.1
      have before := near _ (List.mem_cons_self ..)
      rw [same] at start
      omega
    · exact ih (fun n member => near n (by simp [member])) m later

theorem reach_limits (same : f.left = f.left') (kin : f.Kin m m') (opens : m.role.opens = true)
    (content : m.contentStop < v) (stop : v ≤ w.span.stop) (stop' : v ≤ w'.span.stop)
    (near : ∀ m ∈ a, m.span.start < v) (near' : ∀ m ∈ a', m.span.start < v) :
    Mark.Limits f (reach l w m) (reach l w' m') a a' := by
  have alike := kin.content opens
  rw [same] at alike
  have far : (∀ n ∈ a, n.span.start ≤ w.span.stop) ∧ ∀ n ∈ a', n.span.start ≤ w'.span.stop :=
    ⟨fun n member => Nat.le_trans (Nat.le_of_lt (near n member)) stop,
      fun n member => Nat.le_trans (Nat.le_of_lt (near' n member)) stop'⟩
  unfold reach
  rw [kin.delimiter]
  split
  · split
    · exact .inr far
    · refine .inl ?_
      rw [same]
      omega
  · exact .inr far

-- A region closes with kin marks, or it does not close before the marks part.
theorem opened_parted {index start : Nat} {o o' : Option (Nat × Mark)}
    (same : f.left = f.left') (closes : Mark.Closes f a.length b b' o o')
    (inner : ∀ passing seek, passing ≤ a.length → Parted v (regionsFrom l w passing seek (a ++ b))
      (regionsFrom l w' passing seek (a' ++ b')))
    (far : ∀ m ∈ b, v ≤ m.span.start ∧ m.span.start ≤ m.span.stop)
    (far' : ∀ m ∈ b', v ≤ m.span.start ∧ m.span.start ≤ m.span.stop)
    (later : ∀ m ∈ a ++ b, start ≤ m.span.start)
    (later' : ∀ m ∈ a' ++ b', start ≤ m.span.start) :
    Parted v (opened l w index start seek (a ++ b) o)
      (opened l w' index start seek (a' ++ b') o') := by
  cases closes with
  | met near kin =>
    rename_i n c c'
    have ends := kin.span.2
    rw [same] at ends
    have equal : c.span.stop = c'.span.stop := by omega
    rw [opened, opened, ← equal]
    exact .same _ (inner n c.span.stop (Nat.le_of_lt near))
  | apart out out' =>
    cases o with
    | some r =>
      have ends := far r.2 (out r rfl)
      refine .first (Nat.le_trans ends.1 ends.2) ?_
      cases o' with
      | none => exact regionsFrom_start later'
      | some r' =>
        intro g member
        rcases List.mem_cons.mp member with rfl | further
        · exact Nat.le_refl _
        · exact regionsFrom_start later' g further
    | none =>
      cases o' with
      | none => exact inner 0 seek (Nat.zero_le _)
      | some r' =>
        have ends := far' r'.2 (out' r' rfl)
        exact .second (Nat.le_trans ends.1 ends.2) (regionsFrom_start later)

-- Up to the place where the marks part, the regions are the same unless one reaches it.
theorem regionsFrom_parted (same : f.left = f.left') (kin : List.Forall₂ f.Kin a a')
    (stop : v ≤ w.span.stop) (stop' : v ≤ w'.span.stop) (near : ∀ m ∈ a, m.span.start < v)
    (content : ∀ m ∈ a, m.role.opens = true → m.contentStop < v)
    (far : ∀ m ∈ b, v ≤ m.span.start ∧ m.span.start ≤ m.span.stop)
    (far' : ∀ m ∈ b', v ≤ m.span.start ∧ m.span.start ≤ m.span.stop)
    (ordered : Mark.Ordered (a ++ b)) (ordered' : Mark.Ordered (a' ++ b'))
    (few : passing ≤ a.length) :
    Parted v (regionsFrom l w passing seek (a ++ b)) (regionsFrom l w' passing seek (a' ++ b')) := by
  induction kin generalizing passing seek with
  | nil =>
    exact .beyond (regionsFrom_start fun m member => (far m member).1)
      (regionsFrom_start fun m member => (far' m member).1)
  | cons first others ih =>
    rename_i m m' a a'
    obtain ⟨before, rest⟩ := List.pairwise_cons.mp ordered
    obtain ⟨before', rest'⟩ := List.pairwise_cons.mp ordered'
    have near_rest : ∀ n ∈ a, n.span.start < v := fun n member => near n (by simp [member])
    have inner (passing seek : Nat) (few : passing ≤ a.length) :
        Parted v (regionsFrom l w passing seek (a ++ b))
          (regionsFrom l w' passing seek (a' ++ b')) :=
      ih near_rest (fun n member => content n (by simp [member])) rest rest' few
    cases passing with
    | succ left => exact inner left seek (by simpa using few)
    | zero =>
      have start := first.span.1
      rw [same] at start
      have starts : m.span.start = m'.span.start := by omega
      rcases idle_or_opens m seek with idle | ⟨opens, late⟩
      · have idle' : m'.role.opens = false ∨ m'.span.start < seek := by
          rwa [← first.role, ← starts]
        rw [List.cons_append, List.cons_append, regionsFrom_idle idle, regionsFrom_idle idle']
        exact inner 0 seek (Nat.zero_le _)
      · have limits : Mark.Limits f (reach l w m) (reach l w' m') a a' :=
          reach_limits same first opens (content m (by simp) opens) stop stop' near_rest
            (kin_near same others near_rest)
        rw [List.cons_append, List.cons_append, regionsFrom_opened opens late,
          regionsFrom_opened (first.role ▸ opens) (starts ▸ late), ← first.delimiter, ← starts]
        exact opened_parted same (Mark.close?_kin others limits) inner far far' before
          (by rwa [starts])

end Delimiters

theorem Parted.named {κ : Type} {v : Nat} {x y : List (κ × Span)} {κ' : Type}
    {name? : κ × Span → Option (κ' × Span)} (parted : Parted v x y)
    (named : ∀ f ∈ x, ∃ k, name? f = some (k, f.2)) (named' : ∀ f ∈ y, ∃ k, name? f = some (k, f.2)) :
    Parted v (x.filterMap name?) (y.filterMap name?) := by
  have spans : ∀ {z : List (κ × Span)} {n : Nat}, (∀ f ∈ z, ∃ k, name? f = some (k, f.2)) →
      (∀ f ∈ z, n ≤ f.2.start) → ∀ g ∈ z.filterMap name?, n ≤ g.2.start := by
    intro z n all bound g member
    obtain ⟨f, held, found⟩ := List.mem_filterMap.mp member
    obtain ⟨k, same⟩ := all f held
    cases same.symm.trans found
    exact bound f held
  induction parted with
  | beyond far far' => exact .beyond (spans named far) (spans named' far')
  | same f rest ih =>
    obtain ⟨k, same⟩ := named f (by simp)
    rw [List.filterMap_cons_some same, List.filterMap_cons_some same]
    exact .same _ (ih (fun g member => named g (by simp [member]))
      fun g member => named' g (by simp [member]))
  | first reaches later =>
    obtain ⟨k, same⟩ := named _ (List.mem_cons_self ..)
    rw [List.filterMap_cons_some same]
    exact .first reaches (spans named' later)
  | second reaches later =>
    obtain ⟨k, same⟩ := named' _ (List.mem_cons_self ..)
    rw [List.filterMap_cons_some same]
    exact .second reaches (spans named later)

namespace Delimiters

variable {l : Delimiters} {w : Window} {x y y' t : Text} {last : Char}

theorem sorted_proper (full : ∀ e ∈ l, e.1.Full) :
    ∀ m ∈ Mark.sorted w l, m.span.start ≤ m.span.stop := by
  intro m member
  obtain ⟨e, -, -, from_e⟩ := Mark.mem_sorted full member
  exact from_e.proper

theorem regions_apart (full : ∀ e ∈ l, e.1.Full) (w : Window) : Apart (l.regions w) := by
  have apart : Apart (regionsFrom l w 0 w.start.offset (Mark.sorted w l)) :=
    regionsFrom_apart (Mark.sorted_ordered w l) (sorted_proper full)
  apply apart.filterMap
  intro f g before f' named g' named'
  obtain ⟨e, -, rfl⟩ := Option.map_eq_some_iff.mp named
  obtain ⟨e', -, rfl⟩ := Option.map_eq_some_iff.mp named'
  exact before

theorem regions_named (full : ∀ e ∈ l, e.1.Full) {passing seek : Nat} :
    ∀ r ∈ regionsFrom l w passing seek (Mark.sorted w l),
      ∃ k, (l[r.1]?).map (fun e => (e.2, r.2)) = some (k, r.2) := by
  intro r member
  obtain ⟨m, opening, c, -, -, -, rfl⟩ := mem_regionsFrom member
  obtain ⟨e, -, listed, -⟩ := Mark.mem_sorted full opening
  exact ⟨e.2, by rw [listed]; rfl⟩

theorem regions_parted (full : ∀ e ∈ l, e.1.Full) (kept : ∀ e ∈ l, e.1.keepsToLine = true)
    (front : x = t ++ [last]) (ends : Text.isTerminator last = true) :
    Parted (Text.size x) (l.regions (.whole (x ++ y))) (l.regions (.whole (x ++ y'))) := by
  have parts (y : Text) := Mark.sorted_cut (w := .whole (x ++ y)) (y := y) full kept rfl front ends
  have alike : ((Window.whole (x ++ y)).front x y).Alike ((Window.whole (x ++ y')).front x y') :=
    ⟨rfl, rfl, rfl, .inr ⟨t, last, front, ends⟩⟩
  have kin := Mark.sorted_moved alike full kept
  have stop (y : Text) : Text.size x ≤ (Window.whole (x ++ y)).span.stop := by
    change Text.size x ≤ 0 + Text.size (x ++ y)
    rw [Text.size_append]
    omega
  have front_stop : ((Window.whole (x ++ y)).front x y).span.stop = Text.size x := Nat.zero_add _
  have placed : ∀ m ∈ Mark.sorted ((Window.whole (x ++ y)).front x y) l,
      m.span.start < Text.size x ∧ (m.role.opens = true → m.contentStop < Text.size x) := by
    intro m member
    obtain ⟨e, held, -, from_e⟩ := Mark.mem_sorted full member
    obtain ⟨start, -, content⟩ := from_e.placed (kept e held) front ends
    rw [front_stop] at start content
    exact ⟨start, content⟩
  have far (y : Text) : ∀ m ∈ Mark.sorted ((Window.whole (x ++ y)).back x y) l,
      Text.size x ≤ m.span.start ∧ m.span.start ≤ m.span.stop := by
    intro m member
    obtain ⟨e, -, -, from_e⟩ := Mark.mem_sorted full member
    exact ⟨from_e.start_le, from_e.proper⟩
  have ordered (y : Text) : Mark.Ordered (Mark.sorted ((Window.whole (x ++ y)).front x y) l ++
      Mark.sorted ((Window.whole (x ++ y)).back x y) l) := by
    rw [← parts]
    exact Mark.sorted_ordered _ l
  have parted : Parted (Text.size x)
      (regionsFrom l (.whole (x ++ y)) 0 0 (Mark.sorted (.whole (x ++ y)) l))
      (regionsFrom l (.whole (x ++ y')) 0 0 (Mark.sorted (.whole (x ++ y')) l)) := by
    rw [parts, parts]
    exact regionsFrom_parted rfl kin (stop y) (stop y') (fun m member => (placed m member).1)
      (fun m member => (placed m member).2) (far y) (far y') (ordered y) (ordered y')
      (Nat.zero_le _)
  exact parted.named (regions_named full) (regions_named full)

end Delimiters

end LiveHighlight.Rules
