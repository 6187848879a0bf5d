import LiveHighlight.Pattern.Search
import LiveHighlight.Text.Digits

-- Replacement templates: a dollar sign and the number or the name of a group stand for what the
-- group matched.

namespace LiveHighlight.Pattern

namespace Template

inductive Piece where
  | plain (c : Char)
  | reference (name : Text)

def isNameChar (c : Char) : Bool := c.isAlphanum || c == '_'

-- A name in braces may hold anything but a closing brace.
def braced? (t : Text) : Option (Text × Text) :=
  let (name, behind) := t.span (· != '\x7d')
  match behind with
  | _ :: rest => some (name, rest)
  | [] => none

def reference? (t : Text) : Option (Text × Text) :=
  match t with
  | '\x7b' :: rest => braced? rest
  | _ =>
    let (name, behind) := t.span isNameChar
    if name.isEmpty then none else some (name, behind)

-- The longest name counts; two dollar signs are one, and a lone one stays.
def pieces : Nat → Text → List Piece
  | 0, _ => []
  | _, [] => []
  | bound + 1, '$' :: '$' :: rest => .plain '$' :: pieces bound rest
  | bound + 1, '$' :: rest =>
    match reference? rest with
    | some (name, behind) => .reference name :: pieces bound behind
    | none => .plain '$' :: pieces bound rest
  | bound + 1, c :: rest => .plain c :: pieces bound rest

def ofText (t : Text) : List Piece := pieces t.length t

-- A group number in decimal digits, with a plus sign or without, below the offset limit.
def number? (name : Text) : Option Nat :=
  let digits := match name with
    | '+' :: rest => rest
    | _ => name
  if digits.isEmpty || digits.any (fun c => !c.isDigit) then none
  else
    let n := Text.decimalValue digits
    if n < offsetLimit then some n else none

end Template

def referenceText (p : Pattern) (m : Match) (name : Text) : Text :=
  let named : Option (String × Nat) := p.names.find? fun g => g.1.toList == name
  let index := (Template.number? name).or (named.map fun g => g.2)
  match index.bind m.group? with
  | some s => m.textOf s
  | none => []

def expand (p : Pattern) (m : Match) (template : Text) : Text :=
  (Template.ofText template).flatMap fun
    | .plain c => [c]
    | .reference name => referenceText p m name

end LiveHighlight.Pattern
