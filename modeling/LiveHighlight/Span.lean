-- Half-open spans of byte offsets, and how a span travels through one replacement of text.

namespace LiveHighlight

-- Offsets and lengths are 64 bits wide.
def offsetLimit : Nat := 0x10000000000000000

-- A length read as a signed number of that width.
def signedLength (n : Nat) : Int := Int.bmod n offsetLimit

-- A reversed span is admitted as data: it holds nothing and its length is zero.
structure Span where
  start : Nat
  stop : Nat
  deriving DecidableEq

namespace Span

def length (s : Span) : Nat := s.stop - s.start

def isEmpty (s : Span) : Bool := s.stop ≤ s.start

def shift (s : Span) (base : Nat) : Span := ⟨base + s.start, base + s.stop⟩

def hull (a b : Span) : Span := ⟨min a.start b.start, max a.stop b.stop⟩

def clamp (s : Span) (len : Nat) : Span := ⟨min s.start (min s.stop len), min s.stop len⟩

-- Closed spans meet: overlapping or touching.
def touches (a b : Span) : Bool := b.start ≤ a.stop && a.start ≤ b.stop

-- Some byte of found lies in wanted; an empty wanted span asks for the byte it stands at.
def overlaps (found wanted : Span) : Bool :=
  if wanted.isEmpty then found.start ≤ wanted.start && wanted.start < found.stop
  else found.start < wanted.stop && wanted.start < found.stop

end Span

-- Both start at one place, old in the text before and new in the text after.
structure Replacement where
  old : Span
  new : Span
  deriving DecidableEq

namespace Replacement

-- An offset up to the start of the replaced bytes stays, one from their end on keeps its
-- distance to what follows, and one strictly inside goes to the given side.
def carryOffset (r : Replacement) (inside offset : Nat) : Nat :=
  if offset ≤ r.old.start then offset
  else if r.old.stop ≤ offset then offset - r.old.stop + r.new.stop
  else inside

-- A start that lies inside the replaced bytes goes to the start of the new ones and a stop to
-- their end, so that what the span covered is still covered.
def carry (r : Replacement) (s : Span) : Span :=
  let start := r.carryOffset r.new.start s.start
  ⟨start, max (r.carryOffset r.new.stop s.stop) start⟩

end Replacement

end LiveHighlight
