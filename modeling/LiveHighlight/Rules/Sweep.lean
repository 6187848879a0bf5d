import LiveHighlight.Order
import LiveHighlight.Rules.Delimiter
import LiveHighlight.Text.Window

-- One sweep from left to right that resolves quotes and comments together: a delimiter inside
-- an earlier region opens none of its own.

namespace LiveHighlight.Rules

structure Occurrence where
  start : Cursor
  stop : Cursor

namespace Occurrence

def here? (needle : Text) (c : Cursor) : Option Occurrence :=
  (Text.strip? needle c.rest).map fun behind => ⟨c, c.past needle behind⟩

def isIndent (c : Char) : Bool := c == ' ' || c == '\t'

def indented? (needle : Text) (c : Cursor) : Text → Option Occurrence
  | [] => here? needle (c.withRest [])
  | x :: rest =>
    let here := here? needle (c.withRest (x :: rest))
    if isIndent x then (indented? needle (c.advance x rest) rest).or here else here

-- Occurrences from left to right, each starting no earlier than the one before it stops.
def apart (at? : Cursor → Option Occurrence) (limit : Nat) : List Cursor → List Occurrence
  | [] => []
  | c :: later =>
    if c.offset < limit then apart at? limit later
    else
      match at? c with
      | none => apart at? limit later
      | some o => o :: apart at? o.stop.offset later

def all (w : Window) (needle : Text) : List Occurrence := apart (here? needle) 0 w.start.onward

def leading (w : Window) (needle : Text) : List Occurrence :=
  apart (fun c => if w.isLineStart c then indented? needle c c.rest else none) 0 w.start.onward

def span (o : Occurrence) : Span := ⟨o.start.offset, o.stop.offset⟩

-- A delimiter of one byte right behind a character that is no white space is no comment.
def standsAlone (o : Occurrence) : Bool :=
  1 < o.span.length ||
    match o.start.before.head? with
    | none => true
    | some c => Unicode.isBlank c

end Occurrence

inductive Role where
  | opening
  | closing
  | both
  deriving DecidableEq

def Role.opens : Role → Bool
  | .closing => false
  | _ => true

def Role.closes : Role → Bool
  | .opening => false
  | _ => true

-- A delimiter in its role, with the end of the line content that goes on behind it.
structure Mark where
  delimiter : Nat
  role : Role
  span : Span
  contentStop : Nat
  deriving DecidableEq

namespace Mark

def le (a b : Mark) : Bool :=
  a.span.start < b.span.start ||
    (a.span.start == b.span.start && b.span.length ≤ a.span.length)

def ofOccurrence (w : Window) (index : Nat) (role : Role) (o : Occurrence) : Mark :=
  ⟨index, role, o.span, w.lineContentStop o.stop⟩

-- What an occurrence marks; nothing if it is escaped.
def unescaped (w : Window) (index : Nat) (role : Role) (l : List Occurrence) : List Mark :=
  (l.filter fun o => !o.start.isEscaped).map (ofOccurrence w index role)

-- An inline opening, unless escaped; the empty closing at the end of its line stays in any case.
def ofInline (w : Window) (index : Nat) (o : Occurrence) : List Mark :=
  let stop := w.lineContentStop o.stop
  unescaped w index .opening [o] ++ [⟨index, .closing, ⟨stop, stop⟩, stop⟩]

def ofDelimiter (w : Window) (index : Nat) : Delimiter → List Mark
  | .inline opening leading =>
    let found := if leading then Occurrence.leading w opening else Occurrence.all w opening
    (found.filter (·.standsAlone)).flatMap (ofInline w index)
  | .pair opening closing _ =>
    if opening = closing then unescaped w index .both (Occurrence.all w opening)
    else
      unescaped w index .opening (Occurrence.all w opening) ++
        unescaped w index .closing (Occurrence.all w closing)

def ofDelimiters (w : Window) (index : Nat) : Delimiters → List Mark
  | [] => []
  | (d, _) :: rest => ofDelimiter w index d ++ ofDelimiters w (index + 1) rest

def sorted (w : Window) (l : Delimiters) : List Mark := Order.sort le (ofDelimiters w 0 l)

-- The mark that closes an opening one, and how many marks stand before it. Inner openings of the
-- same delimiter are closed first, and beyond the limit nothing closes.
def close? (index limit : Nat) : Nat → List Mark → Option (Nat × Mark)
  | _, [] => none
  | depth, m :: rest =>
    let next := fun d => (close? index limit d rest).map fun r => (r.1 + 1, r.2)
    if m.delimiter ≠ index then next depth
    else if limit < m.span.start then none
    else if m.role.closes then
      match depth with
      | 0 => some (0, m)
      | outer + 1 => next outer
    else next (depth + 1)

end Mark

namespace Delimiters

def reach (l : Delimiters) (w : Window) (m : Mark) : Nat :=
  match l[m.delimiter]? with
  | some (d, _) => if d.spansLines then w.span.stop else min m.contentStop w.span.stop
  | none => w.span.stop

-- Regions in order. Marks before the closing one are passed over, and none opens before the end
-- of the last region.
def regionsFrom (l : Delimiters) (w : Window) (passing seek : Nat) :
    List Mark → List (Nat × Span)
  | [] => []
  | m :: rest =>
    match passing with
    | left + 1 => regionsFrom l w left seek rest
    | 0 =>
      if !m.role.opens || m.span.start < seek then regionsFrom l w 0 seek rest
      else
        match Mark.close? m.delimiter (reach l w m) 0 rest with
        | none => regionsFrom l w 0 seek rest
        | some (between, closing) =>
          (m.delimiter, ⟨m.span.start, closing.span.stop⟩) ::
            regionsFrom l w between closing.span.stop rest

-- The regions of a stretch of text with their categories. The stretch starts where a line does.
def regions (l : Delimiters) (w : Window) : List (Category × Span) :=
  (regionsFrom l w 0 w.start.offset (Mark.sorted w l)).filterMap fun r =>
    (l[r.1]?).map fun e => (e.2, r.2)

end Delimiters

end LiveHighlight.Rules
