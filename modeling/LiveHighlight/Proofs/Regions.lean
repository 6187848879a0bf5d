import LiveHighlight.Proofs.SweepLines

-- The regions that a sweep makes of its marks.

namespace LiveHighlight.Rules

namespace Mark

variable {index limit depth n : Nat} {m : Mark} {a b l : List Mark}

theorem close?_far (far : ∀ m ∈ l, limit < m.span.start) : close? index limit depth l = none := by
  induction l with
  | nil => rfl
  | cons m rest ih =>
    have here := far m (by simp)
    have later := ih fun m member => far m (by simp [member])
    simp only [close?, later, Option.map_none]
    split
    · rfl
    · rfl

theorem close?_near (far : ∀ m ∈ b, limit < m.span.start) :
    close? index limit depth (a ++ b) = close? index limit depth a := by
  induction a generalizing depth with
  | nil => exact close?_far far
  | cons m rest ih => simp only [List.cons_append, close?, ih]

theorem close?_parts (found : close? index limit depth l = some (n, m)) :
    ∃ a b, l = a ++ m :: b ∧ a.length = n ∧ m.delimiter = index ∧ m.span.start ≤ limit := by
  induction l generalizing depth n with
  | nil => cases found
  | cons first rest ih =>
    have later : ∀ d, (close? index limit d rest).map (fun r => (r.1 + 1, r.2)) = some (n, m) →
        ∃ a b, first :: rest = a ++ m :: b ∧ a.length = n ∧ m.delimiter = index ∧
          m.span.start ≤ limit := by
      intro d mapped
      obtain ⟨⟨k, closing⟩, inner, same⟩ := Option.map_eq_some_iff.mp mapped
      cases same
      obtain ⟨a, b, rfl, rfl, own, near⟩ := ih inner
      exact ⟨first :: a, b, rfl, rfl, own, near⟩
    simp only [close?] at found
    split at found
    · exact later _ found
    · rename_i own
      split at found
      · cases found
      · rename_i near
        split at found
        · split at found
          · cases found
            exact ⟨[], rest, rfl, rfl, Decidable.of_not_not own, Nat.le_of_not_lt near⟩
          · exact later _ found
        · exact later _ found

theorem close?_found (found : close? index limit depth l = some (n, m)) :
    m ∈ l ∧ n < l.length ∧ m.span.start ≤ limit := by
  obtain ⟨a, b, rfl, rfl, -, near⟩ := close?_parts found
  exact ⟨by simp, by simp, near⟩

theorem close?_closes (found : close? index limit depth l = some (n, m)) :
    m.role.closes = true := by
  induction l generalizing depth n with
  | nil => cases found
  | cons first rest ih =>
    have later : ∀ d, (close? index limit d rest).map (fun r => (r.1 + 1, r.2)) = some (n, m) →
        m.role.closes = true := by
      intro d mapped
      obtain ⟨⟨k, closing⟩, inner, same⟩ := Option.map_eq_some_iff.mp mapped
      cases same
      exact ih inner
    simp only [close?] at found
    split at found
    · exact later _ found
    · split at found
      · cases found
      · split at found
        · rename_i closes
          split at found
          · cases found
            exact closes
          · exact later _ found
        · exact later _ found

theorem mem_ofDelimiters {w : Window} {d : Delimiters} (full : ∀ e ∈ d, e.1.Full)
    (member : m ∈ ofDelimiters w index d) :
    ∃ e ∈ d, d[m.delimiter - index]? = some e ∧ index ≤ m.delimiter ∧
      Stems w m.delimiter e.1 m := by
  induction d generalizing index with
  | nil => cases member
  | cons e rest ih =>
    simp only [ofDelimiters] at member
    rcases List.mem_append.mp member with own | later
    · have from_e := stems (full e (by simp)) own
      have place := from_e.delimiter
      refine ⟨e, by simp, ?_, Nat.le_of_eq place.symm, by rwa [place]⟩
      rw [place, Nat.sub_self]
      rfl
    · obtain ⟨other, held, listed, bound, from_other⟩ :=
        ih (fun e member => full e (by simp [member])) later
      refine ⟨other, by simp [held], ?_, by omega, from_other⟩
      have step : m.delimiter - index = m.delimiter - (index + 1) + 1 := by omega
      rw [step, List.getElem?_cons_succ]
      exact listed

theorem mem_sorted {w : Window} {d : Delimiters} (full : ∀ e ∈ d, e.1.Full)
    (member : m ∈ sorted w d) :
    ∃ e ∈ d, d[m.delimiter]? = some e ∧ Stems w m.delimiter e.1 m := by
  obtain ⟨e, held, listed, -, from_e⟩ :=
    mem_ofDelimiters full ((Order.sort_perm _).mem_iff.mp member)
  exact ⟨e, held, listed, from_e⟩

end Mark

namespace Delimiters

variable {l : Delimiters} {w w' : Window} {m : Mark} {marks a b : List Mark}
  {passing seek seek' cut : Nat}

theorem reach_stop (same : w.span.stop = w'.span.stop) (m : Mark) : reach l w m = reach l w' m := by
  unfold reach
  rw [same]

theorem reach_within (l : Delimiters) (w : Window) (m : Mark) : reach l w m ≤ w.span.stop := by
  unfold reach
  split
  · split
    · exact Nat.le_refl _
    · exact Nat.min_le_right _ _
  · exact Nat.le_refl _

theorem idle_or_opens (m : Mark) (seek : Nat) :
    (m.role.opens = false ∨ m.span.start < seek) ∨ m.role.opens = true ∧ seek ≤ m.span.start := by
  cases m.role.opens with
  | false => exact .inl (.inl rfl)
  | true => exact (Nat.lt_or_ge m.span.start seek).imp .inr fun late => ⟨rfl, late⟩

theorem regionsFrom_idle (idle : m.role.opens = false ∨ m.span.start < seek) :
    regionsFrom l w 0 seek (m :: marks) = regionsFrom l w 0 seek marks := by
  rw [regionsFrom, if_pos (by simpa using idle)]

-- What a sweep goes on with once it has looked for the end of a region that has been opened.
def opened (l : Delimiters) (w : Window) (index start seek : Nat) (marks : List Mark) :
    Option (Nat × Mark) → List (Nat × Span)
  | none => regionsFrom l w 0 seek marks
  | some (between, c) =>
    (index, ⟨start, c.span.stop⟩) :: regionsFrom l w between c.span.stop marks

theorem regionsFrom_opened (opens : m.role.opens = true) (late : seek ≤ m.span.start) :
    regionsFrom l w 0 seek (m :: marks) = opened l w m.delimiter m.span.start seek marks
      (Mark.close? m.delimiter (reach l w m) 0 marks) := by
  rw [regionsFrom, if_neg (by simp [opens, late])]
  cases Mark.close? m.delimiter (reach l w m) 0 marks with
  | none => rfl
  | some found => rfl

theorem regionsFrom_closed {r : Nat × Span} (member : r ∈ regionsFrom l w passing seek marks) :
    ∃ a m b n c, marks = a ++ m :: b ∧ m.role.opens = true ∧
      Mark.close? m.delimiter (reach l w m) 0 b = some (n, c) ∧
        r = (m.delimiter, ⟨m.span.start, c.span.stop⟩) := by
  induction marks generalizing passing seek with
  | nil => cases member
  | cons first rest ih =>
    have later : ∀ {passing seek}, r ∈ regionsFrom l w passing seek rest →
        ∃ a m b n c, first :: rest = a ++ m :: b ∧ m.role.opens = true ∧
          Mark.close? m.delimiter (reach l w m) 0 b = some (n, c) ∧
            r = (m.delimiter, ⟨m.span.start, c.span.stop⟩) := by
      intro passing seek held
      obtain ⟨a, m, b, n, c, rfl, said⟩ := ih held
      exact ⟨first :: a, m, b, n, c, rfl, said⟩
    cases passing with
    | succ left => exact later member
    | zero =>
      rcases idle_or_opens first seek with idle | ⟨opens, late⟩
      · rw [regionsFrom_idle idle] at member
        exact later member
      · rw [regionsFrom_opened opens late] at member
        cases found : Mark.close? first.delimiter (reach l w first) 0 rest with
        | none =>
          rw [found] at member
          exact later member
        | some closed =>
          rw [found] at member
          rcases List.mem_cons.mp member with rfl | further
          · exact ⟨[], first, rest, closed.1, closed.2, rfl, opens, found, rfl⟩
          · exact later further

theorem regionsFrom_parts {r : Nat × Span} (member : r ∈ regionsFrom l w passing seek marks) :
    ∃ a m b c, marks = a ++ m :: b ∧ c ∈ b ∧ m.role.opens = true ∧ c.delimiter = m.delimiter ∧
      c.span.start ≤ w.span.stop ∧ r = (m.delimiter, ⟨m.span.start, c.span.stop⟩) := by
  obtain ⟨a, m, b, n, c, parts, opens, found, same⟩ := regionsFrom_closed member
  obtain ⟨x, y, inner, -, own, near⟩ := Mark.close?_parts found
  exact ⟨a, m, b, c, parts, by simp [inner], opens, own,
    Nat.le_trans near (reach_within l w m), same⟩

theorem mem_regionsFrom {r : Nat × Span} (member : r ∈ regionsFrom l w passing seek marks) :
    ∃ m ∈ marks, ∃ c ∈ marks, m.role.opens = true ∧ c.span.start ≤ w.span.stop ∧
      r = (m.delimiter, ⟨m.span.start, c.span.stop⟩) := by
  obtain ⟨a, m, b, c, rfl, later, opens, -, near, same⟩ := regionsFrom_parts member
  exact ⟨m, by simp, c, by simp [later], opens, near, same⟩

theorem regionsFrom_same (stop : w.span.stop = w'.span.stop)
    (seeks : seek = seek' ∨ ∀ m ∈ marks, seek ≤ m.span.start ∧ seek' ≤ m.span.start) :
    regionsFrom l w passing seek marks = regionsFrom l w' passing seek' marks := by
  induction marks generalizing passing seek seek' with
  | nil => rfl
  | cons m rest ih =>
    have others : seek = seek' ∨ ∀ m ∈ rest, seek ≤ m.span.start ∧ seek' ≤ m.span.start :=
      seeks.imp_right fun all m member => all m (by simp [member])
    cases passing with
    | succ left => exact ih others
    | zero =>
      have test : m.span.start < seek ↔ m.span.start < seek' := by
        rcases seeks with rfl | all
        · rfl
        · have here := all m (by simp)
          omega
      rcases idle_or_opens m seek with idle | ⟨opens, late⟩
      · rw [regionsFrom_idle idle, regionsFrom_idle (idle.imp_right test.mp)]
        exact ih others
      · have late' : seek' ≤ m.span.start := by omega
        rw [regionsFrom_opened opens late, regionsFrom_opened opens late', reach_stop stop m]
        cases Mark.close? m.delimiter (reach l w' m) 0 rest with
        | none => exact ih others
        | some closed => exact congrArg (_ :: ·) (ih (.inl rfl))

-- A stretch is cut: all before the cut is closed there, or not at all.
theorem regionsFrom_cut {front back : Window} (stop : w.span.stop = back.span.stop)
    (first : ∀ m ∈ a, m.span.stop ≤ front.span.stop ∧
      (m.role.opens = true → reach l w m = reach l front m ∧ reach l front m < front.span.stop))
    (second : ∀ m ∈ b, front.span.stop ≤ m.span.start) (few : passing ≤ a.length)
    (sought : seek ≤ front.span.stop) :
    regionsFrom l w passing seek (a ++ b) =
      regionsFrom l front passing seek a ++ regionsFrom l back 0 front.span.stop b := by
  induction a generalizing passing seek with
  | nil =>
    cases Nat.le_zero.mp few
    exact regionsFrom_same stop (.inr fun m member =>
      ⟨Nat.le_trans sought (second m member), second m member⟩)
  | cons m rest ih =>
    have others : ∀ m ∈ rest, m.span.stop ≤ front.span.stop ∧
        (m.role.opens = true → reach l w m = reach l front m ∧
          reach l front m < front.span.stop) := fun m member => first m (by simp [member])
    cases passing with
    | succ left => exact ih others (by simpa using few) sought
    | zero =>
      rw [List.cons_append]
      rcases idle_or_opens m seek with idle | ⟨opens, late⟩
      · rw [regionsFrom_idle idle, regionsFrom_idle idle]
        exact ih others (Nat.zero_le _) sought
      · obtain ⟨same, near⟩ := (first m (by simp)).2 opens
        have far : ∀ c ∈ b, reach l front m < c.span.start := fun c member =>
          Nat.lt_of_lt_of_le near (second c member)
        rw [regionsFrom_opened opens late, regionsFrom_opened opens late, same,
          Mark.close?_near far]
        cases found : Mark.close? m.delimiter (reach l front m) 0 rest with
        | none => exact ih others (Nat.zero_le _) sought
        | some closed =>
          obtain ⟨member, within, -⟩ := Mark.close?_found found
          rw [opened, opened, ih others (Nat.le_of_lt within) (others _ member).1,
            List.cons_append]

variable {r : Category × Span} {x y t : Text} {last : Char}

theorem regions_within (full : ∀ e ∈ l, e.1.Full) (member : r ∈ l.regions w) :
    w.span.start ≤ r.2.start ∧ r.2.start < w.span.stop ∧ r.2.stop ≤ w.span.stop := by
  obtain ⟨found, listed, named⟩ := List.mem_filterMap.mp member
  obtain ⟨m, opening, c, closing, opens, near, rfl⟩ := mem_regionsFrom listed
  obtain ⟨e, -, rfl⟩ := Option.map_eq_some_iff.mp named
  obtain ⟨d, -, -, first⟩ := Mark.mem_sorted full opening
  obtain ⟨d, -, -, last⟩ := Mark.mem_sorted full closing
  exact ⟨first.start_le, first.opens_within opens, last.stop_le near⟩

theorem reach_front (full : ∀ e ∈ l, e.1.Full) (kept : ∀ e ∈ l, e.1.keepsToLine = true)
    (single : l.spansLines = false) (body : w.body = x ++ y) (front : x = t ++ [last])
    (ends : Text.isTerminator last = true) (member : m ∈ Mark.sorted (w.front x y) l) :
    m.span.stop ≤ (w.front x y).span.stop ∧
      (m.role.opens = true → reach l w m = reach l (w.front x y) m ∧
        reach l (w.front x y) m < (w.front x y).span.stop) := by
  obtain ⟨e, held, listed, from_e⟩ := Mark.mem_sorted full member
  obtain ⟨-, within, content⟩ := from_e.placed (kept e held) (w := w.front x y) front ends
  refine ⟨within, fun opens => ?_⟩
  have near := content opens
  have own_line : e.1.spansLines = false := by
    simpa using List.any_eq_false.mp single e held
  have inside : (w.front x y).span.stop ≤ w.span.stop := by
    simp only [Window.span, Window.front, Window.body, Cursor.withRest] at body ⊢
    rw [body, Text.size_append]
    omega
  simp only [reach, listed, own_line, Bool.false_eq_true, if_false]
  omega

-- The regions of a stretch that is cut behind a line terminator are those of its halves.
theorem regions_cut (full : ∀ e ∈ l, e.1.Full) (kept : ∀ e ∈ l, e.1.keepsToLine = true)
    (single : l.spansLines = false) (body : w.body = x ++ y) (front : x = t ++ [last])
    (ends : Text.isTerminator last = true) :
    l.regions w = l.regions (w.front x y) ++ l.regions (w.back x y) := by
  have stop : w.span.stop = (w.back x y).span.stop := by
    have whole : Text.size w.start.rest = Text.size x + Text.size y := by
      rw [← Text.size_append, ← body]
      rfl
    simp only [Window.span, Window.back, Window.body, Cursor.past, whole]
    omega
  have first : ∀ m ∈ Mark.sorted (w.front x y) l, _ := fun m member =>
    reach_front full kept single body front ends member
  have second : ∀ m ∈ Mark.sorted (w.back x y) l, (w.front x y).span.stop ≤ m.span.start := by
    intro m member
    obtain ⟨e, -, -, from_e⟩ := Mark.mem_sorted full member
    rw [← Mark.back_start]
    exact from_e.start_le
  have sought : w.start.offset ≤ (w.front x y).span.stop := Nat.le_add_right _ _
  unfold regions
  rw [Mark.sorted_cut full kept body front ends,
    regionsFrom_cut stop first second (Nat.zero_le _) sought, List.filterMap_append,
    Mark.back_start]
  rfl

end Delimiters

end LiveHighlight.Rules
