import LiveHighlight.Text.Cursor

-- A stretch of a text that is searched, with the text on either side of it in view.

namespace LiveHighlight

structure Window where
  -- The place where the stretch starts; its rest is the stretch itself.
  start : Cursor
  behind : Text

namespace Window

def of? (t : Text) (s : Span) : Option Window :=
  (Text.split? t s).map fun parts => ⟨.between parts.1 parts.2.1, parts.2.2⟩

def whole (t : Text) : Window := ⟨.start t, []⟩

def body (w : Window) : Text := w.start.rest

def text (w : Window) : Text := w.start.text ++ w.behind

def span (w : Window) : Span := ⟨w.start.offset, w.start.offset + Text.size w.body⟩

-- Whether a line starts at a place of the stretch. The stretch counts as starting one.
def isLineStart (w : Window) (c : Cursor) : Bool :=
  c.offset == w.start.offset || c.isLineStart

-- The line may go on behind the stretch.
def lineContentStop (w : Window) (c : Cursor) : Nat :=
  c.offset + Text.size (Text.lineContent (c.rest ++ w.behind)).1

end Window

-- Right behind the last terminator character before the offset.
def lineStartBefore (limit offset best : Nat) : Text → Nat
  | [] => best
  | c :: rest =>
    if offset < limit then
      lineStartBefore limit (offset + c.utf8Size)
        (if Text.isTerminator c then offset + 1 else best) rest
    else best

-- Right behind the first terminator at or after the offset, or the end of the text.
def lineStopFrom (limit offset : Nat) : Text → Nat
  | [] => offset
  | '\r' :: '\n' :: rest =>
    if limit ≤ offset then offset + 2
    else if limit ≤ offset + 1 then offset + 2
    else lineStopFrom limit (offset + 2) rest
  | c :: rest =>
    if limit ≤ offset ∧ Text.isTerminator c then offset + c.utf8Size
    else lineStopFrom limit (offset + c.utf8Size) rest

-- The lines that a span touches, terminators included. The span is cut down to the text first.
def lineBounds (t : Text) (s : Span) : Span :=
  let within := s.clamp (Text.size t)
  ⟨lineStartBefore within.start 0 0 t, lineStopFrom within.stop 0 t⟩

end LiveHighlight
