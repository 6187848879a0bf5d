import LiveHighlight.Text

-- Lines of a text. A line feed, a carriage return, or the two in this order end a line; the
-- offset right behind a terminator starts the next one, also at the end of the text.

namespace LiveHighlight

-- Zero-based line and byte distance from the start of that line.
structure Point where
  row : Nat
  column : Nat
  deriving DecidableEq

-- Line starts in increasing order. The first line starts at 0.
structure LineIndex where
  starts : List Nat
  deriving DecidableEq

namespace LineIndex

-- Offsets behind each terminator of a text that itself lies at the offset given.
def startsBehind (offset : Nat) : Text → List Nat
  | [] => []
  | '\r' :: '\n' :: rest => (offset + 2) :: startsBehind (offset + 2) rest
  | c :: rest =>
    let next := offset + c.utf8Size
    if Text.isTerminator c then next :: startsBehind next rest else startsBehind next rest

def empty : LineIndex := ⟨[0]⟩

def ofText (t : Text) : LineIndex := ⟨0 :: startsBehind 0 t⟩

def lineCount (ix : LineIndex) : Nat := ix.starts.length

def lineStart? (ix : LineIndex) (row : Nat) : Option Nat := ix.starts[row]?

def lineSpan? (ix : LineIndex) (row textSize : Nat) : Option Span :=
  (ix.lineStart? row).map fun start =>
    ⟨start, max ((ix.lineStart? (row + 1)).getD textSize) start⟩

-- The line that holds an offset is the last one to start at or before it.
def point? (ix : LineIndex) (offset : Nat) : Option Point :=
  let reached := ix.starts.takeWhile (· ≤ offset)
  reached.getLast?.map fun start => ⟨reached.length - 1, offset - start⟩

-- A sum beyond the greatest offset stays there.
def offset? (ix : LineIndex) (p : Point) : Option Nat :=
  (ix.lineStart? p.row).map fun start => min (start + p.column) (offsetLimit - 1)

-- At an end of the text one of the two neighbours is missing.
def startsBetween (before behind : Option Char) : Bool :=
  match before with
  | none => true
  | some '\n' => true
  | some '\r' => behind != some '\n'
  | some _ => false

def enter (offset : Nat) : List Nat → List Nat
  | [] => [offset]
  | s :: rest =>
    if s < offset then s :: enter offset rest
    else if s = offset then s :: rest
    else offset :: s :: rest

def settle (offset : Nat) (isStart : Bool) (starts : List Nat) : List Nat :=
  if isStart then enter offset starts else starts.filter (· ≠ offset)

def shiftFrom (offset : Nat) (delta : Int) (starts : List Nat) : List Nat :=
  starts.map fun s => if offset ≤ s then (s + delta).toNat else s

end LineIndex

end LiveHighlight
