import LiveHighlight.Category
import LiveHighlight.Definition
import LiveHighlight.Unicode.Number

-- Delimiters that open and close regions in one sweep over the text, each with the category of
-- its regions.

namespace LiveHighlight.Rules

inductive Delimiter where
  -- From the delimiter to the end of its line; a leading one counts only where a line starts.
  | inline (opening : Text) (leading : Bool)
  -- Different delimiters nest.
  | pair (opening closing : Text) (multiline : Bool)
  deriving DecidableEq

namespace Delimiter

def isSymbol (t : Text) : Bool := !t.any Unicode.isAlphanumeric

-- A plain rule with two delimiters made of symbols only. Other rules are searched for alone.
def ofRule? (r : HighlightRule) : Option Delimiter :=
  if r.isPattern || r.beginString.isEmpty then none
  else
    match r.end? with
    | none => none
    | some closing =>
      if isSymbol r.beginString && isSymbol closing then
        some (.pair r.beginString closing r.isMultiline)
      else none

def ofInline? (c : InlineComment) : Option Delimiter :=
  if c.opening.isEmpty then none else some (.inline c.opening c.leadingOnly)

def ofBlock? (c : BlockComment) : Option Delimiter :=
  if c.opening.isEmpty || c.closing.isEmpty then none else some (.pair c.opening c.closing true)

def spansLines : Delimiter → Bool
  | .pair _ _ multiline => multiline
  | .inline _ _ => false

def sameAs : Delimiter → Delimiter → Bool
  | .inline a leadingA, .inline b leadingB => a == b && leadingA == leadingB
  | .pair a x _, .pair b y _ => a == b && x == y
  | _, _ => false

end Delimiter

abbrev Delimiters := List (Delimiter × Category)

namespace Delimiters

def has (l : Delimiters) (d : Delimiter) : Bool := l.any fun e => e.1.sameAs d

def declare? (l : Delimiters) (d : Delimiter) (k : Category) : Option Delimiters :=
  if has l d then none else some (l ++ [(d, k)])

-- Declares a delimiter over any earlier declaration, in its place.
def override (d : Delimiter) (k : Category) : Delimiters → Delimiters
  | [] => [(d, k)]
  | e :: rest => if e.1.sameAs d then (d, k) :: rest else e :: override d k rest

def spansLines (l : Delimiters) : Bool := l.any fun e => e.1.spansLines

end Delimiters

end LiveHighlight.Rules
