import LiveHighlight.SpanSet

-- What was edited since the last finished highlight pass. Edits may come in bursts; each one
-- first carries the older spans into the new text and then adds its own.

namespace LiveHighlight

structure Affected where
  spans : SpanSet
  deriving DecidableEq

namespace Affected

def none : Affected := ⟨.empty⟩

def isEmpty (a : Affected) : Bool := a.spans.isEmpty

-- The replaced span is read off the edited one and the growth; a negative length counts as none.
def add (a : Affected) (edited : Span) (delta : Int) : Affected :=
  let before := (signedLength edited.length - delta).toNat
  ⟨(a.spans.carry ⟨⟨edited.start, edited.start + before⟩, edited⟩).insert edited⟩

def only (r : Span) : Affected := ⟨.ofSpan r⟩

def hull? (a : Affected) : Option Span := a.spans.hull?

end Affected

end LiveHighlight
