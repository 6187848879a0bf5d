-- White space in the sense of the Unicode property White_Space.

namespace LiveHighlight.Unicode

def inIntervals (intervals : List (Nat × Nat)) (n : Nat) : Bool :=
  intervals.any fun i => i.1 ≤ n && n ≤ i.2

-- The bounds are the first code point in the set, the next one out of it, and so on in turns.
def toggled (n : Nat) : List Nat → Bool
  | [] => false
  | b :: rest => b ≤ n && !toggled n rest

def blankIntervals : List (Nat × Nat) :=
  [(0x9, 0xd), (0x20, 0x20), (0x85, 0x85), (0xa0, 0xa0), (0x1680, 0x1680), (0x2000, 0x200a),
    (0x2028, 0x2029), (0x202f, 0x202f), (0x205f, 0x205f), (0x3000, 0x3000)]

def isBlank (c : Char) : Bool := inIntervals blankIntervals c.toNat

def trim (t : List Char) : List Char :=
  ((t.dropWhile isBlank).reverse.dropWhile isBlank).reverse

end LiveHighlight.Unicode
