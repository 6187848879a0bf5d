import LiveHighlight.Proofs.Cutting
import LiveHighlight.Text.Window

-- The lines around a span as the middle of three parts of a text, each of which ends where a line
-- does.

namespace LiveHighlight

namespace Text

variable {t a b : Text} {c : Char}

def Ended (t : Text) : Prop := t = [] ∨ ∃ u c, t = u ++ [c] ∧ isTerminator c = true

theorem ended_append (a : Text) (ends : Ended b) (held : b ≠ []) : Ended (a ++ b) := by
  obtain nothing | ⟨u, c, rfl, last⟩ := ends
  · exact absurd nothing held
  · exact .inr ⟨a ++ u, c, (List.append_assoc _ _ _).symm, last⟩

theorem ended_behind (ends : Ended (a ++ b)) : Ended b := by
  rcases List.eq_nil_or_concat b with rfl | ⟨u, c, rfl⟩
  · exact .inl rfl
  · obtain nothing | ⟨v, d, same, last⟩ := ends
    · simp at nothing
    · rw [List.concat_eq_append, ← List.append_assoc] at same
      obtain ⟨-, rfl⟩ := List.append_inj' same rfl |>.imp id List.singleton_inj.mp
      exact .inr ⟨u, c, List.concat_eq_append, last⟩

end Text


theorem lineStartBefore_parts (limit offset best : Nat) (t : Text) :
    lineStartBefore limit offset best t = best ∨
      ∃ a b, t = a ++ b ∧ a ≠ [] ∧ a.Ended ∧ offset + Text.size a ≤ limit ∧
        lineStartBefore limit offset best t = offset + Text.size a := by
  induction t generalizing offset best with
  | nil => exact .inl rfl
  | cons c rest ih =>
    unfold lineStartBefore
    split
    · rename_i early
      rcases ih (offset + c.utf8Size) (if Text.isTerminator c then offset + 1 else best) with
        same | later
      · rw [same]
        split
        · rename_i ends
          have size := Text.terminator_size ends
          refine .inr ⟨[c], rest, rfl, by simp, .inr ⟨[], c, rfl, ends⟩, ?_, ?_⟩
          · simp only [Text.size_cons, Text.size_nil]
            omega
          · simp only [Text.size_cons, Text.size_nil]
            omega
        · exact .inl rfl
      · obtain ⟨a, b, parts, held, ended, within, found⟩ := later
        refine .inr ⟨c :: a, b, by simp [parts], by simp, Text.ended_append [c] ended held, ?_, ?_⟩
        · simp only [Text.size_cons]
          omega
        · rw [found, Text.size_cons]
          omega
    · exact .inl rfl

theorem lineStopFrom_parts (limit offset : Nat) (t : Text) :
    ∃ a b, t = a ++ b ∧ lineStopFrom limit offset t = offset + Text.size a ∧
      (b = [] ∨ a ≠ [] ∧ a.Ended ∧ limit < offset + Text.size a) := by
  fun_induction lineStopFrom limit offset t with
  | case1 offset => exact ⟨[], [], rfl, rfl, .inl rfl⟩
  | case2 offset rest reached =>
    refine ⟨['\r', '\n'], rest, rfl, rfl, .inr ⟨by simp, .inr ⟨['\r'], '\n', rfl, rfl⟩, ?_⟩⟩
    change limit < offset + 2
    omega
  | case3 offset rest notYet reached =>
    refine ⟨['\r', '\n'], rest, rfl, rfl, .inr ⟨by simp, .inr ⟨['\r'], '\n', rfl, rfl⟩, ?_⟩⟩
    change limit < offset + 2
    omega
  | case4 offset rest notYet later ih =>
    obtain ⟨a, b, parts, stop, ends⟩ := ih
    have size : Text.size ('\r' :: '\n' :: a) = 2 + Text.size a := by
      rw [Text.size_cons, Text.size_cons, ← Nat.add_assoc]
      rfl
    refine ⟨'\r' :: '\n' :: a, b, by simp [parts], by rw [stop, size, Nat.add_assoc], ?_⟩
    rcases ends with nothing | ⟨held, ended, beyond⟩
    · exact .inl nothing
    · exact .inr ⟨by simp, Text.ended_append ['\r', '\n'] ended held, by rwa [size, ← Nat.add_assoc]⟩
  | case5 offset c rest apart here =>
    have size := Text.terminator_size here.2
    refine ⟨[c], rest, rfl, rfl, .inr ⟨by simp, .inr ⟨[], c, rfl, here.2⟩, ?_⟩⟩
    simp only [Text.size_cons, Text.size_nil]
    omega
  | case6 offset c rest apart notHere ih =>
    obtain ⟨a, b, parts, stop, ends⟩ := ih
    refine ⟨c :: a, b, by simp [parts], by rw [stop, Text.size_cons, Nat.add_assoc], ?_⟩
    rcases ends with nothing | ⟨held, ended, beyond⟩
    · exact .inl nothing
    · exact .inr ⟨by simp, Text.ended_append [c] ended held, by rwa [Text.size_cons, ← Nat.add_assoc]⟩

structure Lined (t : Text) (s : Span) (left middle right : Text) : Prop where
  whole : t = left ++ (middle ++ right)
  lines : lineBounds t s = ⟨Text.size left, Text.size left + Text.size middle⟩
  before : left.Ended
  start : Text.size left ≤ (s.clamp (Text.size t)).start
  stop : (s.clamp (Text.size t)).stop ≤ Text.size left + Text.size middle
  behind : right = [] ∨ middle ≠ [] ∧ middle.Ended ∧
    (s.clamp (Text.size t)).stop < Text.size left + Text.size middle

theorem lineBounds_parts (t : Text) (s : Span) :
    ∃ left middle right, Lined t s left middle right := by
  have inside : (s.clamp (Text.size t)).start ≤ (s.clamp (Text.size t)).stop ∧
      (s.clamp (Text.size t)).stop ≤ Text.size t := by
    simp only [Span.clamp]
    omega
  have first : ∃ left rest, t = left ++ rest ∧ left.Ended ∧
      Text.size left ≤ (s.clamp (Text.size t)).start ∧
      (lineBounds t s).start = Text.size left := by
    rcases lineStartBefore_parts (s.clamp (Text.size t)).start 0 0 t with
      same | ⟨a, b, parts, -, ended, within, found⟩
    · exact ⟨[], t, rfl, .inl rfl, Nat.zero_le _, same⟩
    · exact ⟨a, b, parts, ended, by omega, by rw [lineBounds, found, Nat.zero_add]⟩
  obtain ⟨left, rest, parts, before, start, starts⟩ := first
  obtain ⟨a, right, halves, stops, ends⟩ :=
    lineStopFrom_parts (s.clamp (Text.size t)).stop 0 t
  have reached : (s.clamp (Text.size t)).stop ≤ Text.size a := by
    rcases ends with rfl | ⟨-, -, beyond⟩
    · have whole := congrArg Text.size halves
      rw [List.append_nil] at whole
      omega
    · omega
  obtain ⟨middle, rfl, -⟩ := Text.halves_of_le (parts.symm.trans halves) (by omega)
  rw [Text.size_append] at reached ends stops
  refine ⟨left, middle, right, by rw [halves, List.append_assoc], ?_, before, start, reached, ?_⟩
  · simp only [lineBounds] at starts ⊢
    rw [starts, stops, Nat.zero_add]
  · rcases ends with nothing | ⟨held, ended, beyond⟩
    · exact .inl nothing
    · have more : middle ≠ [] := by
        intro nothing
        rw [nothing, Text.size_nil] at beyond
        omega
      exact .inr ⟨more, Text.ended_behind ended, by omega⟩

end LiveHighlight
