import LiveHighlight.Yaml.Scalar

-- The tokens of a YAML stream. Indentation is told by tokens that open and close blocks, and a
-- key that is only known by the colon behind it has its token put in front of it afterwards.

namespace LiveHighlight.Yaml

inductive Token where
  | version (major minor : Nat)
  | tagPrefix (handle full : Text)
  | documentStart
  | documentEnd
  | blockSequence
  | blockMapping
  | blockEnd
  | flowSequence
  | flowSequenceEnd
  | flowMapping
  | flowMappingEnd
  | entry
  | comma
  | key
  | value
  | alias (name : Text)
  | anchor (name : Text)
  | tag (handle suffix : Text)
  | scalar (text : Text) (isPlain : Bool)
  deriving DecidableEq

-- A key that is required has to be followed by a colon.
structure PossibleKey where
  required : Bool
  number : Nat
  place : Place

structure Scan where
  place : Place
  -- How many flow collections are open.
  flow : Nat
  indent : Int
  indents : List Int
  keyAllowed : Bool
  -- For the block context and every open flow collection, innermost first.
  keys : List (Option PossibleKey)
  -- Newest first.
  tokens : List Token

namespace Scan

def start (t : Text) : Scan := ⟨.start t, 0, -1, [], true, [none], []⟩

def add (s : Scan) (t : Token) : Scan := { s with tokens := t :: s.tokens }

def addBefore (s : Scan) (number : Nat) (t : Token) : Scan :=
  let later := s.tokens.length - number
  { s with tokens := s.tokens.take later ++ t :: s.tokens.drop later }

def move (s : Scan) (p : Place) : Scan := { s with place := p }

def inBlock (s : Scan) : Bool := s.flow == 0

def roll (s : Scan) (column : Nat) (number : Option Nat) (t : Token) : Scan :=
  if s.inBlock && s.indent < (column : Int) then
    let opened := { s with indents := s.indent :: s.indents, indent := column }
    match number with
    | none => opened.add t
    | some n => opened.addBefore n t
  else s

def unrollFrom (column : Int) : List Int → Scan → Scan
  | [], s => s
  | outer :: rest, s =>
    if column < s.indent then
      unrollFrom column rest { s.add .blockEnd with indent := outer, indents := rest }
    else s

def unroll (s : Scan) (column : Int) : Scan :=
  if s.inBlock then unrollFrom column s.indents s else s

def isStale (p : Place) (k : PossibleKey) : Bool :=
  k.place.line < p.line || k.place.index + 1024 < p.index

def dropStale (s : Scan) : Option Scan :=
  let isLost := fun k : Option PossibleKey => k.any fun x => isStale s.place x && x.required
  if s.keys.any isLost then none
  else some { s with keys := s.keys.map fun k => k.filter fun x => !isStale s.place x }

def removeKey (s : Scan) : Option Scan :=
  match s.keys with
  | some k :: rest => if k.required then none else some { s with keys := none :: rest }
  | _ => some s

def saveKey (s : Scan) : Option Scan :=
  if s.keyAllowed then
    match s.removeKey with
    | none => none
    | some t =>
      let required := t.inBlock && t.indent == (t.place.column : Int)
      some { t with keys := some ⟨required, t.tokens.length, t.place⟩ :: t.keys.drop 1 }
  else some s

def allow (s : Scan) (allowed : Bool) : Scan := { s with keyAllowed := allowed }

-- Over blanks, comments and line breaks. A tab may not indent where a key may start.
def skipSpace : Nat → Scan → Scan
  | 0, s => s
  | bound + 1, s =>
    let p := if s.place.column == 0 && s.place.isAt byteOrderMark then s.place.skip else s.place
    let tabs := !s.inBlock || !s.keyAllowed
    let (_, q) := p.takeWhile fun c => c == ' ' || (tabs && c == '\t')
    let (_, r) := if q.isAt '#' then q.takeWhile (fun c => !isBreak c) else ([], q)
    if r.atBreak then
      skipSpace bound { s with place := r.skipLine, keyAllowed := s.keyAllowed || s.inBlock }
    else { s with place := r }

def isNameChar (c : Char) : Bool := c.isAlphanum || c == '_' || c == '-'

def mayFollowName (c : Char) : Bool := ['?', ':', ',', ']', '}', '%', '@', '\x60'].contains c

def name? (p : Place) : Option (Text × Place) :=
  let (name, q) := p.skip.takeWhile isNameChar
  if name.isEmpty then none
  else if q.atWordEnd || q.head?.any mayFollowName then some (name, q)
  else none

def isTagChar (c : Char) : Bool :=
  isNameChar c || [';', '/', '?', ':', '@', '&', '=', '+', '$', '.', '%', '!', '~', '*', '\'',
    '(', ')'].contains c

def isUriChar (c : Char) : Bool := isTagChar c || c == ',' || c == '[' || c == ']'

-- A tag's text with its escapes read. An escape names one byte; only bytes of ASCII are read.
def unescapeTag : Text → Option Text
  | [] => some []
  | '%' :: a :: b :: rest =>
    match Text.hexNumber? [a, b] with
    | some n => if n < 128 then (unescapeTag rest).map (Char.ofNat n :: ·) else none
    | none => none
  | '%' :: _ => none
  | c :: rest => (unescapeTag rest).map (c :: ·)

def uri? (ok : Char → Bool) (p : Place) : Option (Text × Place) :=
  let (raw, q) := p.takeWhile ok
  (unescapeTag raw).map fun t => (t, q)

def handle? (p : Place) : Option (Text × Place) :=
  let (name, q) := p.skip.takeWhile isNameChar
  if q.isAt '!' then some ('!' :: name ++ ['!'], q.skip) else none

def tag? (p : Place) : Option (Token × Place) :=
  if p.ahead? 1 == some '<' then
    match uri? isUriChar p.skip.skip with
    | none => none
    | some (full, q) => if full.isEmpty || !q.isAt '>' then none else some (.tag [] full, q.skip)
  else
    match handle? p with
    | some (handle, q) =>
      match uri? isTagChar q with
      | none => none
      | some (suffix, r) => if suffix.isEmpty then none else some (.tag handle suffix, r)
    | none =>
      match uri? isTagChar p.skip with
      | none => none
      | some (suffix, q) =>
        if suffix.isEmpty then some (.tag [] ['!'], q) else some (.tag ['!'] suffix, q)

def versionNumber? (p : Place) : Option (Nat × Place) :=
  let (digits, q) := p.takeWhile Char.isDigit
  if digits.isEmpty || 9 < digits.length then none else some (Text.decimalValue digits, q)

def skipBlanks (p : Place) : Place := (p.takeWhile isBlank).2

def directive? (p : Place) : Option (Token × Place) :=
  let (name, q) := p.skip.takeWhile isNameChar
  if name.isEmpty || !q.atWordEnd then none
  else
    let body :=
      if name = "YAML".toList then
        match versionNumber? (skipBlanks q) with
        | none => none
        | some (major, r) =>
          if !r.isAt '.' then none
          else (versionNumber? r.skip).map fun m => (Token.version major m.1, m.2)
      else if name = "TAG".toList then
        let start := skipBlanks q
        if !start.isAt '!' then none
        else
          let handle := match handle? start with
            | some h => some h
            | none => if (start.ahead? 1).any isBlank then some (['!'], start.skip) else none
          match handle with
          | none => none
          | some (h, r) =>
            if !r.atBlank then none
            else
              match uri? isUriChar (skipBlanks r) with
              | none => none
              | some (full, u) =>
                if full.isEmpty || !u.atWordEnd then none else some (Token.tagPrefix h full, u)
      else none
    match body with
    | none => none
    | some (t, r) =>
      let s := skipBlanks r
      let (_, u) := if s.isAt '#' then s.takeWhile (fun c => !isBreak c) else ([], s)
      if u.atEnd then some (t, u) else if u.atBreak then some (t, u.skipLine) else none

def atMargin (s : Scan) : Option Scan := ((s.unroll (-1)).removeKey).map (·.allow false)

def openFlow (s : Scan) (t : Token) : Option Scan :=
  s.saveKey.map fun r =>
    { r.add t with
      flow := r.flow + 1
      keys := none :: r.keys
      keyAllowed := true
      place := r.place.skip }

def closeFlow (s : Scan) (t : Token) : Option Scan :=
  s.removeKey.map fun r =>
    let keys := if r.flow = 0 then r.keys else r.keys.drop 1
    { (r.add t) with flow := r.flow - 1, keys := keys, keyAllowed := false, place := r.place.skip }

def fetchComma (s : Scan) : Option Scan :=
  s.removeKey.map fun r => ((r.add .comma).allow true).move r.place.skip

def fetchEntry (s : Scan) : Option Scan :=
  if s.inBlock && !s.keyAllowed then none
  else
    (s.roll s.place.column none .blockSequence).removeKey.map fun r =>
      ((r.add .entry).allow true).move r.place.skip

def fetchKey (s : Scan) : Option Scan :=
  if s.inBlock && !s.keyAllowed then none
  else
    (s.roll s.place.column none .blockMapping).removeKey.map fun r =>
      ((r.add .key).allow r.inBlock).move r.place.skip

def fetchValue (s : Scan) : Option Scan :=
  match s.keys with
  | some k :: outer =>
    let keyed := (s.addBefore k.number .key).roll k.place.column (some k.number) .blockMapping
    let closed := { keyed with keys := none :: outer }
    some (((closed.add .value).allow false).move s.place.skip)
  | _ =>
    if s.inBlock && !s.keyAllowed then none
    else
      let opened := s.roll s.place.column none .blockMapping
      some (((opened.add .value).allow opened.inBlock).move s.place.skip)

-- A token that may begin a key and is followed by none itself.
def fetchInline (s : Scan) (read : Place → Option (Token × Place)) : Option Scan :=
  match s.saveKey with
  | none => none
  | some r => (read s.place).map fun t => ((r.add t.1).allow false).move t.2

def fetchBlock (s : Scan) (literal : Bool) : Option Scan :=
  match s.removeKey with
  | none => none
  | some r =>
    (block? literal r.indent r.place).map fun t => ((r.add (.scalar t.1 false)).allow true).move t.2

def fetchPlain (s : Scan) : Option Scan :=
  match s.saveKey with
  | none => none
  | some r =>
    (plain? (!r.inBlock) r.indent r.place).map fun t =>
      ((r.add (.scalar t.1 true)).allow t.2.2).move t.2.1

def isIndicator (c : Char) : Bool :=
  ['-', '?', ':', ',', '[', ']', '{', '}', '#', '&', '*', '!', '|', '>', '\'', '"', '%', '@',
    '\x60'].contains c

def startsPlain (s : Scan) : Bool :=
  let p := s.place
  !(p.atWordEnd || p.head?.any isIndicator) ||
    (p.isAt '-' && !(p.ahead? 1).any isBlank) ||
    (s.inBlock && (p.isAt '?' || p.isAt ':') && !endsWord (p.ahead? 1))

def fetchTag (s : Scan) : Option Scan :=
  s.fetchInline fun p =>
    match tag? p with
    | none => none
    | some (t, q) => if q.atWordEnd || (!s.inBlock && q.isAt ',') then some (t, q) else none

def fetch (s : Scan) : Option Scan :=
  let p := s.place
  let spaced := endsWord (p.ahead? 1)
  if p.column == 0 && p.isAt '%' then
    match s.atMargin with
    | none => none
    | some r => (directive? r.place).map fun t => (r.add t.1).move t.2
  else if p.atIndicator '-' then
    s.atMargin.map fun r => (r.add .documentStart).move (p.skipMany 3)
  else if p.atIndicator '.' then
    s.atMargin.map fun r => (r.add .documentEnd).move (p.skipMany 3)
  else if p.isAt '[' then s.openFlow .flowSequence
  else if p.isAt '{' then s.openFlow .flowMapping
  else if p.isAt ']' then s.closeFlow .flowSequenceEnd
  else if p.isAt '}' then s.closeFlow .flowMappingEnd
  else if p.isAt ',' then s.fetchComma
  else if p.isAt '-' && spaced then s.fetchEntry
  else if p.isAt '?' && (!s.inBlock || spaced) then s.fetchKey
  else if p.isAt ':' && (!s.inBlock || spaced) then s.fetchValue
  else if p.isAt '*' then s.fetchInline fun q => (name? q).map fun n => (.alias n.1, n.2)
  else if p.isAt '&' then s.fetchInline fun q => (name? q).map fun n => (.anchor n.1, n.2)
  else if p.isAt '!' then s.fetchTag
  else if p.isAt '|' && s.inBlock then s.fetchBlock true
  else if p.isAt '>' && s.inBlock then s.fetchBlock false
  else if p.isAt '\'' then
    s.fetchInline fun q => (quoted? true q).map fun t => (.scalar t.1 false, t.2)
  else if p.isAt '"' then
    s.fetchInline fun q => (quoted? false q).map fun t => (.scalar t.1 false, t.2)
  else if s.startsPlain then s.fetchPlain
  else none

-- Every token takes a character at least, so the length of the stream bounds their number.
def run : Nat → Scan → Option (List Token)
  | 0, _ => none
  | bound + 1, s =>
    match (s.skipSpace (s.place.rest.length + 1)).dropStale with
    | none => none
    | some r =>
      let u := r.unroll r.place.column
      if u.place.atEnd then
        ((u.unroll (-1)).removeKey).map fun v => v.tokens.reverse
      else
        match u.fetch with
        | none => none
        | some next => run bound next

end Scan

def tokens? (t : Text) : Option (List Token) :=
  let body := match t with
    | c :: rest => if c == byteOrderMark then rest else t
    | [] => t
  if body.all isAllowed then (Scan.start body).run (body.length + 1) else none

end LiveHighlight.Yaml
