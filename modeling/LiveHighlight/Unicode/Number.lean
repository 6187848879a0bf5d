import LiveHighlight.Unicode.Alphabetic

-- Numbers: decimal digits alone, and with them letter-like numerals, superscripts and fractions.

namespace LiveHighlight.Unicode

def isDigit (c : Char) : Bool := GeneralCategory.digit.holds c

def isNumber (c : Char) : Bool := isOf GeneralCategory.numbers c

def isAlphanumeric (c : Char) : Bool := isAlphabetic c || isNumber c

end LiveHighlight.Unicode
