import LiveHighlight.Unicode.Number

-- Word characters: alphabetic characters, marks, decimal digits, connector punctuation and
-- join controls. A superscript two is alphanumeric and yet no word character.

namespace LiveHighlight.Unicode

def joinControls : List (Nat × Nat) := [(0x200c, 0x200d)]

def isWord (c : Char) : Bool :=
  isAlphabetic c || isOf GeneralCategory.marks c || isDigit c ||
    GeneralCategory.connector.holds c || inIntervals joinControls c.toNat

end LiveHighlight.Unicode
