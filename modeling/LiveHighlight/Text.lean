import LiveHighlight.Span

-- Texts are character lists; every offset into them counts bytes of their encoding. It names a
-- place in a text only if it falls between two characters, and cutting is how a text answers that.

namespace LiveHighlight

abbrev Text := List Char

namespace Text

def size : Text → Nat
  | [] => 0
  | c :: rest => c.utf8Size + size rest

theorem size_append (a b : Text) : size (a ++ b) = size a + size b := by
  induction a with
  | nil => simp [size]
  | cons c rest ih => simp [size, ih, Nat.add_assoc]

theorem size_reverse (t : Text) : size t.reverse = size t := by
  induction t with
  | nil => rfl
  | cons c rest ih => simp [size_append, size, ih, Nat.add_comm]

-- Nothing if the offset is inside a character or beyond the end.
def cut? : Text → Nat → Option (Text × Text)
  | t, 0 => some ([], t)
  | [], _ + 1 => none
  | c :: rest, n + 1 =>
    if c.utf8Size ≤ n + 1 then
      (cut? rest (n + 1 - c.utf8Size)).map fun halves => (c :: halves.1, halves.2)
    else none

def split? (t : Text) (s : Span) : Option (Text × Text × Text) :=
  if s.start ≤ s.stop then
    match cut? t s.start with
    | none => none
    | some (left, rest) =>
      match cut? rest (s.stop - s.start) with
      | none => none
      | some (middle, right) => some (left, middle, right)
  else none

-- A line feed or a carriage return ends the content of a line.
def isTerminator (c : Char) : Bool := c == '\n' || c == '\r'

def lineContent (t : Text) : Text × Text := t.span fun c => !isTerminator c

def strip? : Text → Text → Option Text
  | [], t => some t
  | _ :: _, [] => none
  | c :: beginning, d :: rest => if c = d then strip? beginning rest else none

end Text

end LiveHighlight
