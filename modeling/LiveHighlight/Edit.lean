import LiveHighlight.Lines

-- Edit notifications and what an incremental parser is told of an accepted one.

namespace LiveHighlight

-- One change as the editor reports it: where the inserted text lies afterwards, by how many
-- bytes the text grew, and what was inserted.
structure Edit where
  edited : Span
  delta : Int
  inserted : Text
  deriving DecidableEq

namespace Edit

def insert (offset : Nat) (t : Text) : Edit :=
  ⟨⟨offset, offset + Text.size t⟩, signedLength (Text.size t), t⟩

def delete (offset len : Nat) : Edit := ⟨⟨offset, offset⟩, -(signedLength len), []⟩

def replace (replaced : Span) (t : Text) : Edit :=
  ⟨⟨replaced.start, replaced.start + Text.size t⟩,
    signedLength (Text.size t) - signedLength replaced.length, t⟩

-- The length before is the length after less the growth; no step may leave its number format.
def replaced? (e : Edit) : Option Span :=
  if e.edited.stop < e.edited.start then none
  else
    let before := signedLength e.edited.length - e.delta
    if 0 ≤ before ∧ before < 0x8000000000000000 ∧ e.edited.start + before.toNat < offsetLimit then
      some ⟨e.edited.start, e.edited.start + before.toNat⟩
    else none

end Edit

-- The first two places are those of the text before, the last one is of the text after.
structure Splice where
  start : Nat
  oldStop : Nat
  newStop : Nat
  startPoint : Point
  oldStopPoint : Point
  newStopPoint : Point
  deriving DecidableEq

def Splice.replacement (d : Splice) : Replacement :=
  ⟨⟨d.start, d.oldStop⟩, ⟨d.start, d.newStop⟩⟩

inductive Refusal where
  | invalidRange (edited : Span) (delta : Int) (insertedSize textSize : Nat)
  | noLineStart (offset : Nat)
  deriving DecidableEq

def Refusal.message : Refusal → String
  | .invalidRange edited delta insertedSize textSize =>
    "invalid edit: range " ++ toString edited.start ++ ".." ++ toString edited.stop ++
      " with delta " ++ toString delta ++ " and " ++ toString insertedSize ++
      " inserted bytes does not fit content of " ++ toString textSize ++ " bytes"
  | .noLineStart offset => "no line start at or before offset " ++ toString offset

end LiveHighlight
