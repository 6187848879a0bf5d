import LiveHighlight.Text

-- Concrete syntax trees of JSON documents. Every node knows its bytes; punctuation is kept as
-- unnamed marks, and comments are nodes of their own.

namespace LiveHighlight.Json

inductive Kind where
  | document | object | pair | array | string | stringContent | escapeSequence
  | number | trueLiteral | falseLiteral | nullLiteral | comment
  deriving DecidableEq

namespace Kind

def all : List Kind :=
  [.document, .object, .pair, .array, .string, .stringContent, .escapeSequence,
    .number, .trueLiteral, .falseLiteral, .nullLiteral, .comment]

def name : Kind → String
  | .document => "document"
  | .object => "object"
  | .pair => "pair"
  | .array => "array"
  | .string => "string"
  | .stringContent => "string_content"
  | .escapeSequence => "escape_sequence"
  | .number => "number"
  | .trueLiteral => "true"
  | .falseLiteral => "false"
  | .nullLiteral => "null"
  | .comment => "comment"

def ofName? (n : String) : Option Kind := all.find? fun k => k.name == n

end Kind

inductive Role where
  | key
  | value
  deriving DecidableEq

def Role.ofName? (n : String) : Option Role :=
  if n == "key" then some .key else if n == "value" then some .value else none

inductive Tree where
  | node (role : Option Role) (kind : Kind) (span : Span) (children : List Tree)
  | mark (symbol : Char) (span : Span)

namespace Tree

def span : Tree → Span
  | node _ _ s _ => s
  | mark _ s => s

def children : Tree → List Tree
  | node _ _ _ c => c
  | mark _ _ => []

def isNamed : Tree → Bool
  | node .. => true
  | mark .. => false

def hasRole (r : Role) : Tree → Bool
  | node (some own) _ _ _ => own == r
  | _ => false

def inRole (r : Role) : Tree → Tree
  | node _ k s c => node (some r) k s c
  | mark m s => mark m s

def leaf (k : Kind) (s : Span) : Tree := node none k s []

def namedCount (t : Tree) : Nat := (t.children.filter isNamed).length

mutual

def preorder : Tree → List Tree
  | node r k s c => node r k s c :: preorderAll c
  | mark m s => [mark m s]

def preorderAll : List Tree → List Tree
  | [] => []
  | t :: rest => preorder t ++ preorderAll rest

end

mutual

def carry (e : Replacement) : Tree → Tree
  | node r k s c => node r k (e.carry s) (carryAll e c)
  | mark m s => mark m (e.carry s)

def carryAll (e : Replacement) : List Tree → List Tree
  | [] => []
  | t :: rest => carry e t :: carryAll e rest

end

mutual

-- Spans below which two trees differ. Nodes of another shape or place are reported whole.
def changes : Tree → Tree → List Span
  | node r k s c, node r' k' s' c' =>
    if r = r' ∧ k = k' ∧ s = s' then
      match changesAll c c' with
      | some l => l
      | none => [s]
    else [s, s']
  | mark m s, mark m' s' => if m = m' ∧ s = s' then [] else [s, s']
  | old, new => [old.span, new.span]

def changesAll : List Tree → List Tree → Option (List Span)
  | [], [] => some []
  | t :: rest, t' :: rest' => (changesAll rest rest').map (changes t t' ++ ·)
  | _, _ => none

end

end Tree

end LiveHighlight.Json
