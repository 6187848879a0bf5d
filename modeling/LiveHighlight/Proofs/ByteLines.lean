import LiveHighlight.Proofs.Bytes
import LiveHighlight.Proofs.LineWindows

-- The lines around a span as they are looked up in the bytes of a text. Every piece that is taken
-- and every byte that is read is checked against the length.

namespace LiveHighlight

namespace ByteLines

def isTerminator (b : UInt8) : Bool := b == 10 || b == 13

-- The bytes before an offset and those from it on.

def front? (l : List UInt8) (n : Nat) : Option (List UInt8) :=
  if n ≤ l.length then some (l.take n) else none

def behind? (l : List UInt8) (n : Nat) : Option (List UInt8) :=
  if n ≤ l.length then some (l.drop n) else none

-- Right behind the last terminator, which is looked for from the end.
def lastStop? (l : List UInt8) : Option Nat :=
  (l.reverse.findIdx? isTerminator).map (l.length - ·)

def start? (l : List UInt8) (n : Nat) : Option Nat :=
  (front? l n).map fun front => (lastStop? front).getD 0

def past? (l : List UInt8) (n : Nat) : Option Nat :=
  l[n]?.map fun b => if b = 13 ∧ l[n + 1]? = some 10 then n + 2 else n + 1

def stop? (l : List UInt8) (n : Nat) : Option Nat := do
  match (← behind? l n).findIdx? isTerminator with
  | none => some l.length
  | some k => past? l (n + k)

def bounds? (l : List UInt8) (s : Span) : Option Span := do
  let within := s.clamp l.length
  some ⟨← start? l within.start, ← stop? l within.stop⟩

variable {a b : List UInt8} {c : Char} {n limit offset best : Nat} {t : Text}

theorem encode_terminator (ends : Text.isTerminator c = true) :
    ∃ x, String.utf8EncodeChar c = [x] ∧ isTerminator x = true := by
  simp only [Text.isTerminator, Bool.or_eq_true, beq_iff_eq] at ends
  rcases ends with rfl | rfl
  · exact ⟨10, rfl, rfl⟩
  · exact ⟨13, rfl, rfl⟩

theorem encode_apart (plain : Text.isTerminator c = false) :
    ∀ x ∈ String.utf8EncodeChar c, isTerminator x = false := by
  intro x member
  by_contra held
  rw [Bool.not_eq_false, isTerminator, Bool.or_eq_true, beq_iff_eq, beq_iff_eq] at held
  rcases held with rfl | rfl
  · rw [(Text.encode_small member (by decide)).2] at plain
    cases plain
  · rw [(Text.encode_small member (by decide)).2] at plain
    cases plain

theorem lastStop?_append (a b : List UInt8) :
    lastStop? (a ++ b) = ((lastStop? b).map (a.length + ·)).or (lastStop? a) := by
  simp only [lastStop?, List.reverse_append, List.findIdx?_append, List.length_append,
    List.length_reverse]
  cases last : b.reverse.findIdx? isTerminator with
  | none =>
    rw [Option.none_or, Option.map_none, Option.map_none, Option.none_or, Option.map_map]
    refine Option.map_congr fun k _ => ?_
    dsimp only [Function.comp_apply]
    omega
  | some k =>
    obtain ⟨within, -⟩ := List.findIdx?_eq_some_iff_getElem.mp last
    rw [List.length_reverse] at within
    simp only [Option.some_or, Option.map_some]
    congr 1
    omega

theorem lastStop?_none (plain : ∀ x ∈ a, isTerminator x = false) : lastStop? a = none := by
  rw [lastStop?, Option.map_eq_none_iff, List.findIdx?_eq_none_iff]
  exact fun x member => plain x (List.mem_reverse.mp member)

theorem lineStartBefore_bytes (limit offset best : Nat) (t : Text) :
    lineStartBefore limit offset best t =
      ((lastStop? ((Text.bytes t).take (limit - offset))).map (offset + ·)).getD best := by
  induction t generalizing offset best with
  | nil => simp [lineStartBefore, lastStop?]
  | cons c rest ih =>
    unfold lineStartBefore
    split
    · rename_i early
      have size := String.length_utf8EncodeChar c
      rw [ih, Text.bytes_cons, List.take_append, lastStop?_append, size, Nat.sub_sub]
      cases later : lastStop? ((Text.bytes rest).take (limit - (offset + c.utf8Size))) with
      | some k =>
        have beyond : c.utf8Size ≤ limit - offset := by
          by_contra short
          rw [Nat.sub_eq_zero_of_le (by omega)] at later
          cases later
        rw [List.take_of_length_le (by rwa [size]), size]
        exact Nat.add_assoc _ _ _
      | none =>
        rw [Option.map_none, Option.map_none, Option.none_or, Option.getD_none]
        cases ends : Text.isTerminator c with
        | true =>
          obtain ⟨x, single, terminator⟩ := encode_terminator ends
          obtain ⟨k, more⟩ := Nat.exists_eq_succ_of_ne_zero (Nat.sub_ne_zero_of_lt early)
          rw [single, more]
          simp [lastStop?, terminator]
        | false =>
          rw [lastStop?_none fun x member => encode_apart ends x (List.mem_of_mem_take member)]
          rfl
    · rename_i reached
      rw [Nat.sub_eq_zero_of_le (Nat.le_of_not_lt reached)]
      rfl

theorem past?_append (a b : List UInt8) (n : Nat) :
    past? (a ++ b) (a.length + n) = (past? b n).map (a.length + ·) := by
  have here : (a ++ b)[a.length + n]? = b[n]? := by
    rw [List.getElem?_append_right (Nat.le_add_right _ _), Nat.add_sub_cancel_left]
  have next : (a ++ b)[a.length + n + 1]? = b[n + 1]? := by
    rw [Nat.add_assoc, List.getElem?_append_right (Nat.le_add_right _ _), Nat.add_sub_cancel_left]
  rw [past?, past?, here, next, Option.map_map]
  refine Option.map_congr fun x _ => ?_
  dsimp only [Function.comp_apply]
  split
  · rfl
  · rfl

theorem stop?_append (plain : ∀ x ∈ a.drop (limit - offset), isTerminator x = false)
    (b : List UInt8) : (stop? (a ++ b) (limit - offset)).map (offset + ·) =
      (stop? b (limit - (offset + a.length))).map (offset + a.length + ·) := by
  have within : limit - offset ≤ (a ++ b).length ↔ limit - (offset + a.length) ≤ b.length := by
    rw [List.length_append]
    omega
  simp only [stop?, behind?, within, List.drop_append, Nat.sub_sub]
  split
  · simp only [Option.bind_eq_bind, Option.bind_some, List.findIdx?_append,
      List.findIdx?_eq_none_iff.mpr plain, Option.none_or, List.length_drop]
    cases (b.drop (limit - (offset + a.length))).findIdx? isTerminator with
    | none => simp [Nat.add_assoc]
    | some k =>
      have place : limit - offset + (k + (a.length - (limit - offset))) =
          a.length + (limit - (offset + a.length) + k) := by omega
      rw [Option.map_some]
      dsimp only
      rw [place, past?_append, Option.map_map]
      exact Option.map_congr fun n _ => (Nat.add_assoc _ _ _).symm
  · rfl

theorem stop?_terminator {x : UInt8} (ends : isTerminator x = true)
    (alone : x = 13 → b.head? ≠ some 10) : stop? (x :: b) 0 = some 1 := by
  have single : ¬ (x = 13 ∧ b[0]? = some 10) := by
    rw [← List.head?_eq_getElem?]
    exact fun both => alone both.1 both.2
  simp [stop?, behind?, List.findIdx?_cons, ends, past?, single]

theorem lineStopFrom_bytes (within : limit ≤ offset + Text.size t) :
    (stop? (Text.bytes t) (limit - offset)).map (offset + ·) =
      some (lineStopFrom limit offset t) := by
  fun_induction lineStopFrom limit offset t with
  | case1 offset =>
    rw [Text.size_nil, Nat.add_zero] at within
    rw [Nat.sub_eq_zero_of_le within]
    rfl
  | case2 offset rest reached =>
    rw [Nat.sub_eq_zero_of_le reached]
    rfl
  | case3 offset rest notYet reached =>
    have next : limit - offset = 1 := by omega
    rw [next]
    rfl
  | case4 offset rest notYet later ih =>
    have bytes : Text.bytes ('\r' :: '\n' :: rest) = [13, 10] ++ Text.bytes rest := rfl
    have size : Text.size ('\r' :: '\n' :: rest) = 2 + Text.size rest := by
      rw [Text.size_cons, Text.size_cons, ← Nat.add_assoc]
      rfl
    have passed : ([13, 10] : List UInt8).drop (limit - offset) = [] :=
      List.drop_eq_nil_of_le (by simp only [List.length_cons, List.length_nil]; omega)
    rw [bytes, stop?_append (by simp [passed])]
    exact ih (by omega)
  | case5 offset c rest apart here =>
    obtain ⟨x, single, terminator⟩ := encode_terminator here.2
    have alone : x = 13 → (Text.bytes rest).head? ≠ some 10 := by
      rintro rfl feed
      have own : (13 : UInt8) ∈ String.utf8EncodeChar c := by simp [single]
      have carriage : c = '\r' := (Text.encode_small own (by decide)).2
      obtain ⟨rest', rfl⟩ := List.head?_eq_some_iff.mp ((Text.head?_bytes (by decide)).mp feed)
      exact apart rest' carriage rfl
    rw [Nat.sub_eq_zero_of_le here.1, Text.bytes_cons, single, List.singleton_append,
      stop?_terminator terminator alone, Text.terminator_size here.2]
    rfl
  | case6 offset c rest apart notHere ih =>
    have size := String.length_utf8EncodeChar c
    have passed : ∀ x ∈ (String.utf8EncodeChar c).drop (limit - offset),
        isTerminator x = false := by
      intro x member
      cases ends : Text.isTerminator c with
      | true =>
        have width := Text.terminator_size ends
        have further : ¬ limit ≤ offset := fun reached => notHere ⟨reached, ends⟩
        rw [List.drop_eq_nil_of_le (by omega)] at member
        cases member
      | false => exact encode_apart ends x (List.mem_of_mem_drop member)
    rw [Text.size_cons] at within
    rw [Text.bytes_cons, stop?_append passed, size]
    exact ih (by omega)

-- No piece and no byte is out of bounds, and the lines are those of the search over characters.
theorem bounds?_exact (t : Text) (s : Span) : bounds? (Text.bytes t) s = some (lineBounds t s) := by
  have length := Text.length_bytes t
  have ordered : (s.clamp (Text.size t)).start ≤ (s.clamp (Text.size t)).stop := Nat.min_le_right _ _
  have within : (s.clamp (Text.size t)).stop ≤ Text.size t := Nat.min_le_right _ _
  have start : start? (Text.bytes t) (s.clamp (Text.size t)).start =
      some (lineStartBefore (s.clamp (Text.size t)).start 0 0 t) := by
    rw [start?, front?, if_pos (by omega), lineStartBefore_bytes, Nat.sub_zero, Option.map_some]
    simp
  have stop : stop? (Text.bytes t) (s.clamp (Text.size t)).stop =
      some (lineStopFrom (s.clamp (Text.size t)).stop 0 t) := by
    rw [← lineStopFrom_bytes (by omega), Nat.sub_zero]
    simp
  simp only [bounds?, length, start, stop]
  rfl

end ByteLines

end LiveHighlight
