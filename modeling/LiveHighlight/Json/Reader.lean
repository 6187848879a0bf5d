import LiveHighlight.Json.Tree

-- From text to tree. Only some spans of a text may be asked for; their pieces are then read as one
-- document, and every node keeps its place in the whole text.

namespace LiveHighlight.Json

abbrev Located := List (Nat × Char)

namespace Located

def ofText (offset : Nat) : Text → Located
  | [] => []
  | c :: rest => (offset, c) :: ofText (offset + c.utf8Size) rest

def within (l : Located) (spans : List Span) : Located :=
  l.filter fun p => spans.any fun s => s.start ≤ p.1 && p.1 < s.stop

def strip? : List Char → Located → Option Located
  | [], l => some l
  | _ :: _, [] => none
  | c :: word, p :: rest => if p.2 = c then strip? word rest else none

end Located

def isBlank (c : Char) : Bool :=
  c == ' ' || c == '\t' || c == '\n' || c == '\r' || c == '\x0b' || c == '\x0c'

def isMark (c : Char) : Bool := ['{', '}', '[', ']', ',', ':'].contains c

def isEscapable (c : Char) : Bool := ['"', '\\', '/', 'b', 'f', 'n', 'r', 't', 'u'].contains c

def extend (run : Option Span) (offset : Nat) (c : Char) : Option Span :=
  match run with
  | none => some ⟨offset, offset + c.utf8Size⟩
  | some s => some ⟨s.start, offset + c.utf8Size⟩

def flush (run : Option Span) : List Tree := (run.map (Tree.leaf .stringContent)).toList

-- A content part is a longest run without quotes, backslashes or line feeds.
def stringParts (run : Option Span) : Located → Option (List Tree × Nat × Located)
  | [] => none
  | (o, '"') :: rest => some (flush run, o, rest)
  | (_, '\n') :: _ => none
  | (o, '\\') :: (p, c) :: rest =>
    if isEscapable c then
      (stringParts none rest).map fun r =>
        (flush run ++ Tree.leaf .escapeSequence ⟨o, p + c.utf8Size⟩ :: r.1, r.2)
    else none
  | (o, c) :: rest => stringParts (extend run o c) rest

def string? (o : Nat) (rest : Located) : Option (Tree × Located) :=
  (stringParts none rest).map fun r =>
    let quote := fun place => Tree.mark '"' ⟨place, place + 1⟩
    (.node none .string ⟨o, r.2.1 + 1⟩ (quote o :: r.1 ++ [quote r.2.1]), r.2.2)

def skipDigits (l : Located) : Located := l.dropWhile fun p => p.2.isDigit

def skipFraction : Located → Located
  | (_, '.') :: rest => skipDigits rest
  | l => l

def skipExponent : Located → Located
  | (o, c) :: rest =>
    if c == 'e' || c == 'E' then
      match rest with
      | (_, '-') :: digits => skipDigits digits
      | digits => skipDigits digits
    else (o, c) :: rest
  | l => l

-- What follows a number without its sign. A leading zero stands alone.
def unsigned? : Located → Option Located
  | (_, '0') :: rest => some (skipExponent (skipFraction rest))
  | (_, c) :: rest =>
    if c.isDigit then some (skipExponent (skipFraction (skipDigits rest))) else none
  | [] => none

def number? : Located → Option Located
  | (_, '-') :: rest => unsigned? rest
  | l => unsigned? l

-- What follows a comment up to the next line feed, or up to the next star and slash.
def skipLine (l : Located) : Located := l.dropWhile fun p => p.2 != '\n'

def skipBlock? : Located → Option Located
  | (_, '*') :: (_, '/') :: rest => some rest
  | _ :: rest => skipBlock? rest
  | [] => none

def comment? : Located → Option Located
  | (_, '/') :: rest => some (skipLine rest)
  | (_, '*') :: rest => skipBlock? rest
  | _ => none

def stopBetween (l rest : Located) (start : Nat) : Nat :=
  match (l.take (l.length - rest.length)).getLast? with
  | some p => p.1 + p.2.utf8Size
  | none => start

def token? (l : Located) : Option (Tree × Located) :=
  match l with
  | [] => none
  | (o, c) :: rest =>
    let leaf := fun kind (behind : Located) =>
      (Tree.leaf kind ⟨o, stopBetween ((o, c) :: rest) behind o⟩, behind)
    if isMark c then some (.mark c ⟨o, o + 1⟩, rest)
    else if c == '"' then string? o rest
    else if c == '/' then (comment? rest).map (leaf .comment)
    else if c == 't' then (Located.strip? ['r', 'u', 'e'] rest).map (leaf .trueLiteral)
    else if c == 'f' then (Located.strip? ['a', 'l', 's', 'e'] rest).map (leaf .falseLiteral)
    else if c == 'n' then (Located.strip? ['u', 'l', 'l'] rest).map (leaf .nullLiteral)
    else (number? l).map (leaf .number)

-- Each token takes a character at least, so the length of the text bounds their number.
def tokens (bound : Nat) (l : Located) : Option (List Tree) :=
  match bound, l with
  | _, [] => some []
  | 0, _ :: _ => none
  | bound + 1, p :: rest =>
    if isBlank p.2 then tokens bound rest
    else
      match token? (p :: rest) with
      | none => none
      | some (t, behind) => (tokens bound behind).map (t :: ·)

def comments (ts : List Tree) : List Tree × List Tree :=
  ts.span fun
    | .node _ .comment _ _ => true
    | _ => false

def cover (ts : List Tree) : Span :=
  match ts.head?, ts.getLast? with
  | some a, some b => ⟨a.span.start, b.span.stop⟩
  | _, _ => ⟨0, 0⟩

inductive Expected where
  | itemOrClose
  | commaOrClose
  | item

mutual

-- One value, with no comment in front.
def value? (bound : Nat) (ts : List Tree) : Option (Tree × List Tree) :=
  match bound, ts with
  | 0, _ => none
  | _, [] => none
  | bound + 1, .mark '{' s :: rest =>
    (members? bound .itemOrClose true rest).map fun r =>
      (.node none .object (cover (.mark '{' s :: r.1)) (.mark '{' s :: r.1), r.2)
  | bound + 1, .mark '[' s :: rest =>
    (members? bound .itemOrClose false rest).map fun r =>
      (.node none .array (cover (.mark '[' s :: r.1)) (.mark '[' s :: r.1), r.2)
  | _, .mark _ _ :: _ => none
  | _, .node _ .comment _ _ :: _ => none
  | _, t :: rest => some (t, rest)

-- The rest of an object or an array, closing mark included.
def members? (bound : Nat) (expected : Expected) (inObject : Bool) (ts : List Tree) :
    Option (List Tree × List Tree) :=
  match bound, ts with
  | 0, _ => none
  | _, [] => none
  | bound + 1, .node r .comment s c :: rest =>
    (members? bound expected inObject rest).map fun l => (.node r .comment s c :: l.1, l.2)
  | bound + 1, t :: rest =>
    let closes := match t with
      | .mark '}' _ => inObject
      | .mark ']' _ => !inObject
      | _ => false
    let isComma := match t with
      | .mark ',' _ => true
      | _ => false
    match expected with
    | .commaOrClose =>
      if closes then some ([t], rest)
      else if isComma then (members? bound .item inObject rest).map fun l => (t :: l.1, l.2)
      else none
    | .itemOrClose =>
      if closes then some ([t], rest)
      else members? bound .item inObject (t :: rest)
    | .item =>
      match (if inObject then pair? bound (t :: rest) else value? bound (t :: rest)) with
      | none => none
      | some (item, behind) =>
        (members? bound .commaOrClose inObject behind).map fun l => (item :: l.1, l.2)

-- A key, a colon and a value; comments may stand between them.
def pair? (bound : Nat) (ts : List Tree) : Option (Tree × List Tree) :=
  match bound, ts with
  | 0, _ => none
  | bound + 1, .node r .string s c :: rest =>
    let (before, behindKey) := comments rest
    match behindKey with
    | .mark ':' m :: behindColon =>
      let (after, front) := comments behindColon
      (value? bound front).map fun v =>
        let parts := (Tree.node r .string s c).inRole .key :: before ++
          (.mark ':' m :: after ++ [v.1.inRole .value])
        (.node none .pair (cover parts) parts, v.2)
    | _ => none
  | _, _ => none

end

-- Values and comments up to the end.
def items? (bound : Nat) (ts : List Tree) : Option (List Tree) :=
  match bound, ts with
  | _, [] => some []
  | 0, _ :: _ => none
  | bound + 1, .node r .comment s c :: rest =>
    (items? bound rest).map (.node r .comment s c :: ·)
  | bound + 1, t :: rest =>
    match value? (4 * (rest.length + 1) + 4) (t :: rest) with
    | none => none
    | some (v, behind) => (items? bound behind).map (v :: ·)

-- The document starts at its first token and goes on to the end of what was read.
def read? (t : Text) (spans : List Span) : Option Tree :=
  let located := (Located.ofText 0 t).within spans
  match tokens located.length located with
  | none => none
  | some ts =>
    let stop := stopBetween located [] 0
    (items? ts.length ts).map fun trees =>
      .node none .document ⟨(trees.head?.map (·.span.start)).getD stop, stop⟩ trees

def readWhole? (t : Text) : Option Tree := read? t [⟨0, Text.size t⟩]

end LiveHighlight.Json
