import LiveHighlight.Unicode.Fold
import LiveHighlight.Unicode.Property

-- Sets of characters as patterns write them.

namespace LiveHighlight.Pattern

inductive CharSet where
  -- Code points from the first to the last.
  | interval (first last : Nat)
  | word
  | digit
  | blank
  | property (p : Unicode.Property)
  | none
  | union (a b : CharSet)
  | inter (a b : CharSet)
  | complement (a : CharSet)
  -- With every member all characters that differ from it only in case.
  | caseless (a : CharSet)
  -- The same for the letters of ASCII alone.
  | asciiCaseless (a : CharSet)

namespace CharSet

def contains : CharSet → Char → Bool
  | interval first last, c => first ≤ c.toNat && c.toNat ≤ last
  | word, c => Unicode.isWord c
  | digit, c => Unicode.isDigit c
  | blank, c => Unicode.isBlank c
  | property p, c => p.holds c
  | none, _ => false
  | union a b, c => a.contains c || b.contains c
  | inter a b, c => a.contains c && b.contains c
  | complement a, c => !a.contains c
  | caseless a, c => (Unicode.caseVariants c).any a.contains
  | asciiCaseless a, c => a.contains c || a.contains c.toLower || a.contains c.toUpper

def single (c : Char) : CharSet := .interval c.toNat c.toNat

def all : CharSet := .complement .none

def ofList (l : List CharSet) : CharSet := l.foldl union none

def diff (a b : CharSet) : CharSet := .inter a (.complement b)

def symmDiff (a b : CharSet) : CharSet := .union (a.diff b) (b.diff a)

def ofIntervals (l : List (Nat × Nat)) : CharSet := ofList (l.map fun i => .interval i.1 i.2)

def dot (linePairs : Bool) : CharSet :=
  .complement (if linePairs then .union (single '\n') (single '\r') else single '\n')

-- The classes that are written by name inside brackets; all are of ASCII only.
def named? (name : String) : Option CharSet :=
  let upper := (65, 90)
  let lower := (97, 122)
  let digits := (48, 57)
  match name with
  | "alnum" => some (ofIntervals [digits, upper, lower])
  | "alpha" => some (ofIntervals [upper, lower])
  | "ascii" => some (ofIntervals [(0, 127)])
  | "blank" => some (ofIntervals [(9, 9), (32, 32)])
  | "cntrl" => some (ofIntervals [(0, 31), (127, 127)])
  | "digit" => some (ofIntervals [digits])
  | "graph" => some (ofIntervals [(33, 126)])
  | "lower" => some (ofIntervals [lower])
  | "print" => some (ofIntervals [(32, 126)])
  | "punct" => some (ofIntervals [(33, 47), (58, 64), (91, 96), (123, 126)])
  | "space" => some (ofIntervals [(9, 13), (32, 32)])
  | "upper" => some (ofIntervals [upper])
  | "word" => some (ofIntervals [digits, upper, lower, (95, 95)])
  | "xdigit" => some (ofIntervals [digits, (65, 70), (97, 102)])
  | _ => Option.none

end CharSet

end LiveHighlight.Pattern
