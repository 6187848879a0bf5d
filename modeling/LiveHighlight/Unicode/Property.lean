import LiveHighlight.Unicode.Script
import LiveHighlight.Unicode.Word

-- Properties of characters by name: general categories and their groups, scripts, and properties
-- that need no value. Ages, breaks, script extensions and the rarer properties have no name here.

namespace LiveHighlight.Unicode

inductive Property where
  | any
  | ascii
  | assigned
  | unassigned
  | of (categories : List GeneralCategory)
  -- Unassigned code points count among the others.
  | others
  | script (s : Script)
  | alphabetic
  | blank
  | lower
  | upper
  | idStart
  | idContinue
  -- What stays an identifier when it is normalised.
  | stableIdStart
  | stableIdContinue

namespace Property

def furtherLowerIntervals : List (Nat × Nat) :=
  [(0xaa, 0xaa), (0xba, 0xba), (0x2b0, 0x2b8), (0x2c0, 0x2c1), (0x2e0, 0x2e4), (0x345, 0x345),
    (0x37a, 0x37a), (0x10fc, 0x10fc), (0x1d2c, 0x1d6a), (0x1d78, 0x1d78), (0x1d9b, 0x1dbf),
    (0x2071, 0x2071), (0x207f, 0x207f), (0x2090, 0x209c), (0x2170, 0x217f), (0x24d0, 0x24e9),
    (0x2c7c, 0x2c7d), (0xa69c, 0xa69d), (0xa770, 0xa770), (0xa7f2, 0xa7f4), (0xa7f8, 0xa7f9),
    (0xab5c, 0xab5f), (0xab69, 0xab69), (0x10780, 0x10780), (0x10783, 0x10785),
    (0x10787, 0x107b0), (0x107b2, 0x107ba), (0x1e030, 0x1e06d)]

def furtherUpperIntervals : List (Nat × Nat) :=
  [(0x2160, 0x216f), (0x24b6, 0x24cf), (0x1f130, 0x1f149), (0x1f150, 0x1f169),
    (0x1f170, 0x1f189)]

def furtherStartIntervals : List (Nat × Nat) :=
  [(0x1885, 0x1886), (0x2118, 0x2118), (0x212e, 0x212e), (0x309b, 0x309c)]

def furtherContinueIntervals : List (Nat × Nat) :=
  [(0xb7, 0xb7), (0x387, 0x387), (0x1369, 0x1371), (0x19da, 0x19da), (0x200c, 0x200d),
    (0x30fb, 0x30fb), (0xff65, 0xff65)]

def unstableIntervals : List (Nat × Nat) :=
  [(0x37a, 0x37a), (0x309b, 0x309c), (0xfc5e, 0xfc63), (0xfdfa, 0xfdfb), (0xfe70, 0xfe70),
    (0xfe72, 0xfe72), (0xfe74, 0xfe74), (0xfe76, 0xfe76), (0xfe78, 0xfe78), (0xfe7a, 0xfe7a),
    (0xfe7c, 0xfe7c), (0xfe7e, 0xfe7e)]

def unstableStartIntervals : List (Nat × Nat) :=
  [(0xe33, 0xe33), (0xeb3, 0xeb3), (0xff9e, 0xff9f)]

def isAssigned (c : Char) : Bool :=
  isOf (GeneralCategory.letters ++ GeneralCategory.marks ++ GeneralCategory.numbers ++
    GeneralCategory.punctuation ++ GeneralCategory.symbols ++ GeneralCategory.separators ++
    GeneralCategory.others) c

-- The vertical tilde is a letter and yet starts no identifier.
def startsId (c : Char) : Bool :=
  (isOf (.letterNumber :: GeneralCategory.letters) c && c != '\u2e2f') ||
    inIntervals furtherStartIntervals c.toNat

def continuesId (c : Char) : Bool :=
  startsId c || isOf [.nonspacingMark, .spacingMark, .digit, .connector] c ||
    inIntervals furtherContinueIntervals c.toNat

def holds : Property → Char → Bool
  | any, _ => true
  | ascii, c => c.toNat < 128
  | assigned, c => isAssigned c
  | unassigned, c => !isAssigned c
  | of l, c => isOf l c
  | others, c => isOf GeneralCategory.others c || !isAssigned c
  | script s, c => toggled c.toNat s.bounds
  | alphabetic, c => isAlphabetic c
  | blank, c => isBlank c
  | lower, c => GeneralCategory.lower.holds c || inIntervals furtherLowerIntervals c.toNat
  | upper, c => GeneralCategory.upper.holds c || inIntervals furtherUpperIntervals c.toNat
  | idStart, c => startsId c
  | idContinue, c => continuesId c
  | stableIdStart, c =>
    startsId c && !inIntervals (unstableIntervals ++ unstableStartIntervals) c.toNat
  | stableIdContinue, c => continuesId c && !inIntervals unstableIntervals c.toNat

def bare : List (List String × Property) :=
  [(["alphabetic", "alpha"], alphabetic), (["whitespace", "wspace", "space"], blank),
    (["lowercase", "lower"], lower), (["uppercase", "upper"], upper),
    (["idstart", "ids"], idStart), (["idcontinue", "idc"], idContinue),
    (["xidstart", "xids"], stableIdStart), (["xidcontinue", "xidc"], stableIdContinue)]

def categories : List (List String × Property) :=
  [(["any"], any), (["ascii"], ascii), (["assigned"], assigned),
    (["letter", "l"], of GeneralCategory.letters),
    (["casedletter", "lc"], of [.upper, .lower, .title]),
    (["uppercaseletter", "lu"], of [.upper]), (["lowercaseletter", "ll"], of [.lower]),
    (["titlecaseletter", "lt"], of [.title]), (["modifierletter", "lm"], of [.modifierLetter]),
    (["otherletter", "lo"], of [.otherLetter]),
    (["mark", "m", "combiningmark"], of GeneralCategory.marks),
    (["nonspacingmark", "mn"], of [.nonspacingMark]), (["spacingmark", "mc"], of [.spacingMark]),
    (["enclosingmark", "me"], of [.enclosingMark]),
    (["number", "n"], of GeneralCategory.numbers), (["decimalnumber", "nd", "digit"], of [.digit]),
    (["letternumber", "nl"], of [.letterNumber]), (["othernumber", "no"], of [.otherNumber]),
    (["punctuation", "p", "punct"], of GeneralCategory.punctuation),
    (["connectorpunctuation", "pc"], of [.connector]), (["dashpunctuation", "pd"], of [.dash]),
    (["openpunctuation", "ps"], of [.opening]), (["closepunctuation", "pe"], of [.closing]),
    (["initialpunctuation", "pi"], of [.initialQuote]),
    (["finalpunctuation", "pf"], of [.finalQuote]),
    (["otherpunctuation", "po"], of [.otherPunctuation]),
    (["symbol", "s"], of GeneralCategory.symbols), (["mathsymbol", "sm"], of [.mathSymbol]),
    (["currencysymbol", "sc"], of [.currency]), (["modifiersymbol", "sk"], of [.modifierSymbol]),
    (["othersymbol", "so"], of [.otherSymbol]),
    (["separator", "z"], of GeneralCategory.separators), (["spaceseparator", "zs"], of [.space]),
    (["lineseparator", "zl"], of [.lineSeparator]),
    (["paragraphseparator", "zp"], of [.paragraphSeparator]),
    (["other", "c"], others), (["control", "cc", "cntrl"], of [.control]),
    (["format", "cf"], of [.format]), (["privateuse", "co"], of [.privateUse]),
    (["unassigned", "cn"], unassigned)]

def find? (l : List (List String × Property)) (name : String) : Option Property :=
  (l.find? (·.1.contains name)).map (·.2)

-- Case, blanks, hyphens, underscores and a leading "is" do not count, nor does anything beyond
-- ASCII. What is left of "isc" would name a category, and names none.
def plainName (t : List Char) : String :=
  let kept := fun t : List Char =>
    (t.filter fun c => c.toNat < 128 && c != ' ' && c != '_' && c != '-').map Char.toLower
  match t.map Char.toLower with
  | 'i' :: 's' :: _ =>
    let name := String.ofList (kept (t.drop 2))
    if name == "c" then "isc" else name
  | _ => String.ofList (kept t)

def named? (t : List Char) : Option Property :=
  let name := plainName t
  ((find? bare name).or (find? categories name)).or ((script? name).map script)

def valued? (t value : List Char) : Option Property :=
  match plainName t with
  | "generalcategory" => find? categories (plainName value)
  | "gc" => find? categories (plainName value)
  | "script" => (script? (plainName value)).map script
  | "sc" => (script? (plainName value)).map script
  | _ => none

end Property

end LiveHighlight.Unicode
