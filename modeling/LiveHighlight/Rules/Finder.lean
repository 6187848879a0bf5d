import LiveHighlight.Definition
import LiveHighlight.Order
import LiveHighlight.Pattern.Reader
import LiveHighlight.Text.Window

-- Rules that are searched for one by one: patterns, word lists, and begin and end matches.

namespace LiveHighlight.Rules

inductive RuleError where
  | unknownCategory (name : String)
  -- The pattern as it was to be read.
  | badPattern (pattern : Text)
  deriving DecidableEq

def RuleError.message? : RuleError → Option String
  | .unknownCategory n => some ("unknown highlight category '" ++ n ++ "'")
  | .badPattern _ => none

def readPattern (t : Text) (ignoreCase dotAll : Bool) : Except RuleError Pattern :=
  match Pattern.read? t ignoreCase dotAll with
  | some p => .ok p
  | none => .error (.badPattern t)

inductive Finder where
  -- Every match in the stretch that is searched.
  | pattern (p : Pattern) (spansLines : Bool)
  -- From a begin match to the next end match.
  | beginEnd (opening closing : Pattern) (multiline escapable : Bool)

namespace Finder

def plainPattern (t : Text) (ignoreCase : Bool) : Pattern :=
  .ofExpr (.literal ignoreCase t) []

-- Anything but a plain word. A plain rule without an end that says something gives none.
def ofRule? (r : HighlightRule) : Except RuleError (Option Finder) :=
  if r.beginString.isEmpty then .ok none
  else
    match r.isPattern, r.end? with
    | true, some closing =>
      match readPattern r.beginString r.ignoreCase false with
      | .error e => .error e
      | .ok p =>
        match readPattern closing r.ignoreCase false with
        | .error e => .error e
        | .ok q => .ok (some (.beginEnd p q r.isMultiline false))
    | true, none =>
      (readPattern r.beginString r.ignoreCase r.isMultiline).map fun p =>
        some (.pattern p r.isMultiline)
    | false, some closing =>
      .ok (some (.beginEnd (plainPattern r.beginString r.ignoreCase)
        (plainPattern closing r.ignoreCase) r.isMultiline true))
    | false, none => .ok none

def spansLines : Finder → Bool
  | .pattern _ s => s
  | .beginEnd _ _ m _ => m

-- Word lists.

def isWordChar (c : Char) : Bool := Unicode.isAlphanumeric c || c == '_'

def textLe : Text → Text → Bool
  | [], _ => true
  | _ :: _, [] => false
  | c :: s, d :: t => c < d || (c == d && textLe s t)

def longerFirst (a b : Text) : Bool :=
  Text.size b < Text.size a || (Text.size a == Text.size b && textLe a b)

def dropRepeats : List Text → List Text
  | [] => []
  | w :: rest =>
    match dropRepeats rest with
    | [] => [w]
    | v :: more => if w = v then v :: more else w :: v :: more

-- Trimmed words, longest first, each once.
def arrangeWords (words : List Text) : List Text :=
  dropRepeats (Order.sort longerFirst ((words.map Unicode.trim).filter fun w => !w.isEmpty))

def boundaryAt (c : Option Char) : List Pattern.Expr :=
  if c.any isWordChar then [.look (.word .boundary)] else []

-- A word with a boundary at each end that has a word character.
def wordExpr (ignoreCase : Bool) (w : Text) : Pattern.Expr :=
  .seqAll (boundaryAt w.head? ++ w.map (.char ignoreCase) ++ boundaryAt w.getLast?)

-- The words of one category as one pattern; a longer word comes before its beginnings.
def ofWords? (words : List Text) (ignoreCase : Bool) : Option Finder :=
  match arrangeWords words with
  | [] => none
  | l => some (.pattern (.ofExpr (.altAll (l.map (wordExpr ignoreCase))) []) false)

-- The first end match that is not escaped. An escaped one is passed over as a whole.
def closing? (p : Pattern) (escapable : Bool) : Nat → Cursor → Option Cursor
  | 0, _ => none
  | bound + 1, c =>
    match p.find? c with
    | none => none
    | some m =>
      if escapable && !m.isEmpty && m.start.isEscaped then closing? p escapable bound m.stop
      else some m.stop

-- What lies behind the limit of a region is put back for the next one.
def beginEndFrom (p q : Pattern) (multiline escapable : Bool) : Nat → Cursor → List Span
  | 0, _ => []
  | bound + 1, c =>
    if c.rest.isEmpty then []
    else
      match p.find? c with
      | none => []
      | some m =>
        let (content, beyond) := if multiline then (m.stop.rest, []) else Text.lineContent m.stop.rest
        match (if m.isEmpty then m.stop.next? else some m.stop) with
        | none => []
        | some d =>
          if escapable && m.start.isEscaped then beginEndFrom p q multiline escapable bound d
          else if m.isEmpty && content.isEmpty then beginEndFrom p q multiline escapable bound d
          else
            let inside := if m.isEmpty then content.drop 1 else content
            match closing? q escapable (inside.length + 1) (d.withRest inside) with
            | none => beginEndFrom p q multiline escapable bound d
            | some stop =>
              ⟨m.start.offset, stop.offset⟩ ::
                beginEndFrom p q multiline escapable bound (stop.withRest (stop.rest ++ beyond))

-- A pattern sees nothing outside the stretch; a begin or end match may look back beyond its start.
def spans (e : Finder) (w : Window) : List Span :=
  match e with
  | .pattern p _ =>
    ((p.allMatches w.body).map fun m => m.span.shift w.start.offset).filter fun s => !s.isEmpty
  | .beginEnd p q multiline escapable =>
    beginEndFrom p q multiline escapable (w.body.length + 1) w.start

end Finder

end LiveHighlight.Rules
