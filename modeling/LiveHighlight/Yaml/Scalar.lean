import LiveHighlight.Text.Digits
import LiveHighlight.Yaml.Place

-- Scalars: quoted, plain and block ones. Each reader starts at the scalar's first character and
-- gives the text with the place behind it.

namespace LiveHighlight.Yaml

-- Blanks behind a break are dropped.
structure Gap where
  blanks : Text
  first : Option Text
  later : Text

namespace Gap

-- One line feed is a space, and of several the first drops out.
def fold (g : Gap) : Text :=
  match g.first with
  | none => g.blanks
  | some b => if b = ['\n'] then (if g.later.isEmpty then [' '] else g.later) else b ++ g.later

def broke (g : Gap) : Bool := g.first.isSome

def take (refusesTab : Place → Bool) : Nat → Gap → Place → Option (Gap × Place)
  | 0, _, _ => none
  | bound + 1, g, p =>
    if p.atBlank then
      match g.first with
      | none => take refusesTab bound { g with blanks := g.blanks ++ p.rest.take 1 } p.skip
      | some _ => if p.isAt '\t' && refusesTab p then none else take refusesTab bound g p.skip
    else if p.atBreak then
      match g.first with
      | none => take refusesTab bound ⟨[], some p.breakText, g.later⟩ p.skipLine
      | some _ => take refusesTab bound { g with later := g.later ++ p.breakText } p.skipLine
    else some (g, p)

def empty : Gap := ⟨[], none, []⟩

end Gap

def escapedCode? (count : Nat) (p : Place) : Option (Char × Place) :=
  let digits := p.rest.take count
  if digits.length = count then
    ((Text.hexNumber? digits).bind Text.charOfCode?).map fun c => (c, p.skipMany count)
  else none

def escape? (p : Place) : Option (Char × Place) :=
  match p.head? with
  | none => none
  | some c =>
    let meant := fun x : Char => some (x, p.skip)
    match c with
    | '0' => meant '\x00'
    | 'a' => meant '\x07'
    | 'b' => meant '\x08'
    | 't' => meant '\t'
    | '\t' => meant '\t'
    | 'n' => meant '\n'
    | 'v' => meant '\x0b'
    | 'f' => meant '\x0c'
    | 'r' => meant '\r'
    | 'e' => meant '\x1b'
    | ' ' => meant ' '
    | '"' => meant '"'
    | '/' => meant '/'
    | '\\' => meant '\\'
    | 'N' => meant '\x85'
    | '_' => meant '\xa0'
    | 'L' => meant '\u2028'
    | 'P' => meant '\u2029'
    | 'x' => escapedCode? 2 p.skip
    | 'u' => escapedCode? 4 p.skip
    | 'U' => escapedCode? 8 p.skip
    | _ => none

-- The text read so far is kept backwards.
def quotedFrom (single : Bool) : Nat → Text → Place → Option (Text × Place)
  | 0, _, _ => none
  | bound + 1, read, p =>
    let quote := if single then '\'' else '"'
    if p.atDocumentEdge then none
    else
      match p.head? with
      | none => none
      | some c =>
        if single && c == '\'' && p.ahead? 1 == some '\'' then
          quotedFrom single bound ('\'' :: read) p.skip.skip
        else if c == quote then some (read.reverse, p.skip)
        else if !single && c == '\\' then
          if p.skip.atBreak then
            let behind := p.skip.skipLine
            match Gap.take (fun _ => false) (p.rest.length + 1) ⟨[], some [], []⟩ behind with
            | none => none
            | some (g, q) => quotedFrom single bound (g.fold.reverse ++ read) q
          else
            match escape? p.skip with
            | none => none
            | some (x, q) => quotedFrom single bound (x :: read) q
        else if isBlank c || isBreak c then
          match Gap.take (fun _ => false) (p.rest.length + 1) .empty p with
          | none => none
          | some (g, q) => quotedFrom single bound (g.fold.reverse ++ read) q
        else quotedFrom single bound (c :: read) p.skip

def quoted? (single : Bool) (p : Place) : Option (Text × Place) :=
  quotedFrom single (p.rest.length + 1) [] p.skip

def isFlowMark (c : Char) : Bool := [',', '[', ']', '{', '}'].contains c

def plainStops (flow : Bool) (p : Place) : Bool :=
  (p.isAt ':' && endsWord (p.ahead? 1)) || (flow && p.head?.any isFlowMark)

-- A colon that a flow mark follows belongs to no plain scalar.
def plainRefuses (flow : Bool) (p : Place) : Bool :=
  flow && p.isAt ':' && (p.ahead? 1).any fun c => isFlowMark c || c == '?'

-- A gap only counts once more of the scalar follows it.
def plainFrom (flow : Bool) (indent : Int) :
    Nat → Text → Gap → Place → Option (Text × Place × Bool)
  | 0, _, _, _ => none
  | bound + 1, read, gap, p =>
    if p.atDocumentEdge then some (read.reverse, p, gap.broke)
    else if p.atEnd then some (read.reverse, p, gap.broke)
    else if p.atBlank || p.atBreak then
      match Gap.take (fun q => (q.column : Int) < indent) (p.rest.length + 1) gap p with
      | none => none
      | some (g, q) =>
        if (!flow && (q.column : Int) < indent) || q.isAt '#' then some (read.reverse, q, g.broke)
        else plainFrom flow indent bound read g q
    else if plainRefuses flow p then none
    else if plainStops flow p then some (read.reverse, p, gap.broke)
    else
      plainFrom flow indent bound ((p.rest.take 1) ++ (gap.fold.reverse ++ read)) .empty p.skip

def plain? (flow : Bool) (indent : Int) (p : Place) : Option (Text × Place × Bool) :=
  plainFrom flow (indent + 1) (2 * p.rest.length + 2) [] .empty p

inductive Chomping where
  | strip
  | clip
  | keep
  deriving DecidableEq

def chomping? (p : Place) : Option Chomping :=
  match p.head? with
  | some '+' => some .keep
  | some '-' => some .strip
  | _ => none

def hint? (p : Place) : Option (Option (Nat × Place)) :=
  match p.head? with
  | some c =>
    if c == '0' then none
    else if c.isDigit then some (some (Text.digitValue c, p.skip))
    else some none
  | none => some none

def blockHeader? (p : Place) : Option (Chomping × Option Nat × Place) :=
  match chomping? p with
  | some k =>
    match hint? p.skip with
    | none => none
    | some none => some (k, none, p.skip)
    | some (some (n, q)) => some (k, some n, q)
  | none =>
    match hint? p with
    | none => none
    | some none => some (.clip, none, p)
    | some (some (n, q)) =>
      match chomping? q with
      | some k => some (k, some n, q.skip)
      | none => some (.clip, some n, q)

-- A tab in the indentation is refused.
def blockBreaks (indent : Option Nat) : Nat → Text → Nat → Place → Option (Text × Nat × Place)
  | 0, _, _, _ => none
  | bound + 1, breaks, widest, p =>
    let inIndent := match indent with
      | none => true
      | some n => p.column < n
    if inIndent && p.isAt ' ' then blockBreaks indent bound breaks widest p.skip
    else
      let wide := max widest p.column
      if inIndent && p.isAt '\t' then none
      else if p.atBreak then blockBreaks indent bound (breaks ++ p.breakText) wide p.skipLine
      else some (breaks, wide, p)

-- The break that ended the last line and the empty lines behind it are held back.
structure Held where
  read : Text
  last : Text
  empty : Text
  -- Whether the last line began with a blank.
  indented : Bool

-- When folding, a break between two lines that start with no blank becomes a space.
def Held.join (h : Held) (literal indented : Bool) : Text :=
  let joined :=
    if !literal && h.last == ['\n'] && !h.indented && !indented then
      if h.empty.isEmpty then [' '] else []
    else h.last
  h.read ++ joined ++ h.empty

def blockLines (literal : Bool) (indent : Nat) : Nat → Held → Place → Option (Held × Place)
  | 0, _, _ => none
  | bound + 1, h, p =>
    if p.column == indent && !p.atEnd then
      let (line, q) := p.takeWhile fun c => !isBreak c
      let read := h.join literal p.atBlank ++ line
      let last := if q.atEnd then [] else q.breakText
      match blockBreaks (some indent) (q.rest.length + 1) [] 0 q.skipLine with
      | none => none
      | some (empty, _, r) => blockLines literal indent bound ⟨read, last, empty, p.atBlank⟩ r
    else some (h, p)

def block? (literal : Bool) (parent : Int) (p : Place) : Option (Text × Place) :=
  match blockHeader? p.skip with
  | none => none
  | some (chomping, hint, q) =>
    let (_, r) := q.takeWhile isBlank
    let (_, s) := if r.isAt '#' then r.takeWhile (fun c => !isBreak c) else ([], r)
    if !s.atEnd && !s.atBreak then none
    else
      let known := hint.map fun n => if 0 ≤ parent then parent.toNat + n else n
      match blockBreaks known (s.rest.length + 1) [] 0 s.skipLine with
      | none => none
      | some (breaks, widest, u) =>
        let indent := known.getD (max (max widest (parent + 1).toNat) 1)
        match blockLines literal indent (u.rest.length + 1) ⟨[], [], breaks, false⟩ u with
        | none => none
        | some (h, v) =>
          let tail := match chomping with
            | .strip => []
            | .clip => h.last
            | .keep => h.last ++ h.empty
          some (h.read ++ tail, v)

end LiveHighlight.Yaml
