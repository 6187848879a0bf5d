import LiveHighlight.Lines

-- A place between two characters of a text, with what lies on either side. A reader moves
-- forward through the rest and can look back at what it has passed.

namespace LiveHighlight

structure Cursor where
  -- Nearest character first.
  before : Text
  rest : Text
  offset : Nat
  -- Offsets are counted from where the text begins.
  offset_eq : offset = Text.size before

namespace Cursor

def start (t : Text) : Cursor := ⟨[], t, 0, rfl⟩

def between (left right : Text) : Cursor :=
  ⟨left.reverse, right, Text.size left, (Text.size_reverse left).symm⟩

def advance (c : Cursor) (x : Char) (rest : Text) : Cursor :=
  ⟨x :: c.before, rest, x.utf8Size + c.offset, by simp [Text.size, c.offset_eq]⟩

def next? (c : Cursor) : Option Cursor :=
  match c.rest with
  | [] => none
  | x :: rest => some (c.advance x rest)

def withRest (c : Cursor) (rest : Text) : Cursor := { c with rest := rest }

def past (c : Cursor) (passed behind : Text) : Cursor :=
  ⟨passed.reverse ++ c.before, behind, Text.size passed + c.offset,
    by rw [Text.size_append, Text.size_reverse, c.offset_eq]⟩

def onwardFrom (c : Cursor) : Text → List Cursor
  | [] => [c.withRest []]
  | x :: rest => c.withRest (x :: rest) :: onwardFrom (c.advance x rest) rest

def onward (c : Cursor) : List Cursor := c.onwardFrom c.rest

def text (c : Cursor) : Text := c.before.reverse ++ c.rest

def isLineStart (c : Cursor) : Bool := LineIndex.startsBetween c.before.head? c.rest.head?

-- A line feed behind a carriage return does not end the line once more.
def isLineEnd (c : Cursor) : Bool :=
  match c.rest.head? with
  | none => true
  | some '\r' => true
  | some '\n' => c.before.head? != some '\r'
  | some _ => false

-- Whether an odd number of backslashes stands right before this place.
def isEscaped (c : Cursor) : Bool := (c.before.takeWhile (· == '\\')).length % 2 == 1

end Cursor

end LiveHighlight
