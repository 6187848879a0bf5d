import LiveHighlight.Text

-- A place in a YAML stream, counted in lines and columns, and the characters that matter there.

namespace LiveHighlight.Yaml

def isBreak (c : Char) : Bool :=
  c == '\n' || c == '\r' || c == '\x85' || c == '\u2028' || c == '\u2029'

def isBlank (c : Char) : Bool := c == ' ' || c == '\t'

def endsWord (c : Option Char) : Bool :=
  match c with
  | none => true
  | some x => isBlank x || isBreak x

def isAllowed (c : Char) : Bool :=
  let n := c.toNat
  n == 9 || n == 10 || n == 13 || (32 ≤ n && n ≤ 126) || n == 0x85 ||
    (0xa0 ≤ n && n ≤ 0xd7ff) || (0xe000 ≤ n && n ≤ 0xfffd) || 0x10000 ≤ n

def byteOrderMark : Char := '\ufeff'

structure Place where
  rest : Text
  line : Nat
  column : Nat
  index : Nat
  deriving DecidableEq

namespace Place

def start (t : Text) : Place := ⟨t, 0, 0, 0⟩

def head? (p : Place) : Option Char := p.rest.head?

def ahead? (p : Place) (n : Nat) : Option Char := p.rest[n]?

def atEnd (p : Place) : Bool := p.rest.isEmpty

def skip (p : Place) : Place :=
  { p with rest := p.rest.drop 1, column := p.column + 1, index := p.index + 1 }

def skipMany : Nat → Place → Place
  | 0, p => p
  | n + 1, p => skipMany n p.skip

-- Over a line break; a carriage return and a line feed are one.
def skipLine (p : Place) : Place :=
  match p.rest with
  | '\r' :: '\n' :: rest => ⟨rest, p.line + 1, 0, p.index + 2⟩
  | _ :: rest => ⟨rest, p.line + 1, 0, p.index + 1⟩
  | [] => p

-- What a line break stands for in a scalar.
def breakText (p : Place) : Text :=
  match p.rest with
  | '\u2028' :: _ => ['\u2028']
  | '\u2029' :: _ => ['\u2029']
  | _ => ['\n']

def isAt (p : Place) (c : Char) : Bool := p.head? == some c

def atBlank (p : Place) : Bool := p.head?.any isBlank

def atBreak (p : Place) : Bool := p.head?.any isBreak

def atWordEnd (p : Place) : Bool := endsWord p.head?

def takeWhile (ok : Char → Bool) (p : Place) : Text × Place :=
  let taken := p.rest.takeWhile ok
  (taken, { p with
    rest := p.rest.drop taken.length
    column := p.column + taken.length
    index := p.index + taken.length })

-- Three hyphens or three dots that stand alone at the start of a line.
def atIndicator (c : Char) (p : Place) : Bool :=
  p.column == 0 && p.ahead? 0 == some c && p.ahead? 1 == some c && p.ahead? 2 == some c &&
    endsWord (p.ahead? 3)

def atDocumentEdge (p : Place) : Bool := p.atIndicator '-' || p.atIndicator '.'

end Place

end LiveHighlight.Yaml
