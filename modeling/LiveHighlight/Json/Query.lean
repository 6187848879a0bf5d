import LiveHighlight.Json.Tree
import LiveHighlight.Nesting.Parsing

-- Patterns over trees. A pattern names nodes by kind, may ask for children in order, and gives
-- the nodes it finds capture names.

namespace LiveHighlight.Json

open LiveHighlight.Nesting (Binding Match)

mutual

inductive NodePattern where
  -- A node of a kind with such children, in order but with gaps. A closed pattern admits no
  -- named child behind the last.
  | named (kind : Kind) (children : List ChildPattern) (closed : Bool) (captures : List String)
  | mark (symbol : Char) (captures : List String)

-- A child, in a given role if one is asked for. An anchored one follows what was matched before
-- with no named child between.
inductive ChildPattern where
  | child (role : Option Role) (anchored : Bool) (pattern : NodePattern)

end

structure Rule where
  pattern : NodePattern
  settings : List (String × String)

abbrev Query := List Rule

namespace Query

def bind (names : List String) (s : Span) : List Binding := names.map fun n => ⟨n, s⟩

def choices : List Tree → List (Tree × List Tree)
  | [] => []
  | t :: rest => (t, rest) :: choices rest

-- The trees that may come next under an anchor: the first named one, and marks in front of it.
def nearChoices : List Tree → List (Tree × List Tree)
  | [] => []
  | t :: rest => if t.isNamed then [(t, rest)] else (t, rest) :: nearChoices rest

mutual

-- All ways in which a pattern fits a tree; each is a list of bindings in text order.
def fits : NodePattern → Tree → List (List Binding)
  | .named kind children closed names, .node _ k s trees =>
    if k = kind then (fitsChildren children closed trees).map (bind names s ++ ·) else []
  | .mark symbol names, .mark m s => if m = symbol then [bind names s] else []
  | _, _ => []

def fitsChildren : List ChildPattern → Bool → List Tree → List (List Binding)
  | [], closed, trees => if closed && trees.any (·.isNamed) then [] else [[]]
  | .child role anchored pattern :: more, closed, trees =>
    (if anchored then nearChoices trees else choices trees).flatMap fun choice =>
      let admitted := match role with
        | none => true
        | some r => choice.1.hasRole r
      if admitted then
        (fits pattern choice.1).flatMap fun found =>
          (fitsChildren more closed choice.2).map (found ++ ·)
      else []

end

-- In text order of the node that the pattern fits, and for one node in the order of the rules.
def allMatches (q : Query) (t : Tree) : List (Tree × Match) :=
  t.preorder.flatMap fun node =>
    q.flatMap fun rule => (fits rule.pattern node).map fun b => (node, ⟨b, rule.settings⟩)

-- Whether a node is looked at when only some bytes are asked for; an end of 0 sets no limit.
def reaches (wanted : Span) (node : Tree) : Bool :=
  wanted.stop == 0 || (node.span.start < wanted.stop && wanted.start < node.span.stop)

def matchesWithin (q : Query) (t : Tree) (wanted : Span) : List Match :=
  ((allMatches q t).filter fun m => reaches wanted m.1).map (·.2)

end Query

end LiveHighlight.Json
