import LiveHighlight.Span

-- Sorted sets of spans in which overlapping or touching members are merged. Empty spans are
-- members too: a deletion leaves one behind, and the place still has to be looked at.

namespace LiveHighlight

structure SpanSet where
  spans : List Span
  deriving DecidableEq

namespace SpanSet

def empty : SpanSet := ⟨[]⟩

def isEmpty (s : SpanSet) : Bool := s.spans.isEmpty

-- Members wholly before the new span stay in front of it; from the first one that reaches it on,
-- members are absorbed as long as they touch.
def place (new : Span) : List Span → List Span
  | [] => [new]
  | r :: rest =>
    if r.stop < new.start then r :: place new rest
    else if new.stop < r.start then new :: r :: rest
    else place (new.hull r) rest

-- A reversed span is no member and is passed over.
def insert (s : SpanSet) (new : Span) : SpanSet :=
  if new.stop < new.start then s else ⟨place new s.spans⟩

def ofList (l : List Span) : SpanSet := l.foldl insert empty

def ofSpan (r : Span) : SpanSet := empty.insert r

def union (s t : SpanSet) : SpanSet := t.spans.foldl insert s

def hull? (s : SpanSet) : Option Span :=
  match s.spans.head?, s.spans.getLast? with
  | some first, some last => some ⟨first.start, last.stop⟩
  | _, _ => none

def intersects (s : SpanSet) (r : Span) : Bool := s.spans.any (·.touches r)

def carry (s : SpanSet) (r : Replacement) : SpanSet := ofList (s.spans.map r.carry)

end SpanSet

end LiveHighlight
