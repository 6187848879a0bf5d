import LiveHighlight.Pattern.CharSet
import LiveHighlight.Text.Cursor

-- Patterns as trees, and the decision points at which a search may branch.

namespace LiveHighlight.Pattern

-- Where words begin and end, by what stands on either side of a place.
inductive WordLook where
  | boundary
  | noBoundary
  | start
  | stop
  | startHalf
  | stopHalf
  deriving DecidableEq

def WordLook.holds (l : WordLook) (left right : Bool) : Bool :=
  match l with
  | .boundary => left != right
  | .noBoundary => left == right
  | .start => !left && right
  | .stop => left && !right
  | .startHalf => !left
  | .stopHalf => !right

-- Conditions on a place that take no character.
inductive Look where
  | textStart
  | textEnd
  | lineStart
  | lineEnd
  -- Lines that only a line feed ends.
  | feedStart
  | feedEnd
  | word (l : WordLook)
  -- Words of ASCII characters only.
  | asciiWord (l : WordLook)
  deriving DecidableEq

def isWordAt (c : Option Char) : Bool :=
  match c with
  | some x => Unicode.isWord x
  | none => false

def isAsciiWordAt (c : Option Char) : Bool :=
  match c with
  | some x => x.isAlphanum || x == '_'
  | none => false

def Look.holds (l : Look) (c : Cursor) : Bool :=
  match l with
  | .textStart => c.before.isEmpty
  | .textEnd => c.rest.isEmpty
  | .lineStart => c.isLineStart
  | .lineEnd => c.isLineEnd
  | .feedStart => c.before.isEmpty || c.before.head? == some '\n'
  | .feedEnd => c.rest.isEmpty || c.rest.head? == some '\n'
  | .word l => l.holds (isWordAt c.before.head?) (isWordAt c.rest.head?)
  | .asciiWord l => l.holds (isAsciiWordAt c.before.head?) (isAsciiWordAt c.rest.head?)

theorem Look.boundary_holds (c : Cursor) : (Look.word .boundary).holds c =
    (isWordAt c.before.head? != isWordAt c.rest.head?) := rfl

inductive Expr where
  | empty
  | set (s : CharSet)
  | look (l : Look)
  -- What it matches is remembered under a number.
  | group (index : Nat) (e : Expr)
  | seq (a b : Expr)
  -- The first branch is preferred.
  | alt (a b : Expr)
  | rep (least : Nat) (most : Option Nat) (greedy : Bool) (e : Expr)

namespace Expr

def onlyEmpty : Expr → Bool
  | empty => true
  | set _ => false
  | look _ => true
  | group _ e => e.onlyEmpty
  | seq a b => a.onlyEmpty && b.onlyEmpty
  | alt a b => a.onlyEmpty && b.onlyEmpty
  | rep _ most _ e => most == some 0 || e.onlyEmpty

def maybeEmpty : Expr → Bool
  | empty => true
  | set _ => false
  | look _ => true
  | group _ e => e.maybeEmpty
  | seq a b => a.maybeEmpty && b.maybeEmpty
  | alt a b => a.maybeEmpty || b.maybeEmpty
  | rep least _ _ e => least == 0 || e.maybeEmpty

def weight : Expr → Nat
  | empty => 1
  | set _ => 1
  | look _ => 1
  | group _ e => e.weight + 1
  | seq a b => a.weight + b.weight
  | alt a b => a.weight + b.weight + 1
  | rep least most _ e => max 1 (most.getD least) * (e.weight + 1)

-- What only matches empty text is never repeated.
def repeated (least : Nat) (most : Option Nat) (greedy : Bool) (e : Expr) : Expr :=
  let fewest := if e.onlyEmpty then min least 1 else least
  let bound := if e.onlyEmpty then some (min (most.getD 1) 1) else most
  if fewest = 0 ∧ bound = some 0 then .empty
  else if fewest = 1 ∧ bound = some 1 then e
  else .rep fewest bound greedy e

def seqAll (l : List Expr) : Expr :=
  match l with
  | [] => .empty
  | [e] => e
  | e :: rest => .seq e (seqAll rest)

def altAll (l : List Expr) : Expr :=
  match l with
  | [] => .set .none
  | [e] => e
  | e :: rest => .alt e (altAll rest)

def char (ignoreCase : Bool) (c : Char) : Expr :=
  .set (if ignoreCase then .caseless (.single c) else .single c)

def literal (ignoreCase : Bool) (t : Text) : Expr := seqAll (t.map (char ignoreCase))

end Expr

-- Each place where a search branches has a number of its own.
inductive Node where
  | empty
  | set (s : CharSet)
  | look (l : Look)
  | group (index : Nat) (n : Node)
  | seq (a b : Node)
  | alt (id : Nat) (a b : Node)
  -- Either the node or nothing; greedy prefers the node.
  | opt (id : Nat) (greedy : Bool) (n : Node)
  -- The node again and again, from none on or from once on.
  | star (id : Nat) (greedy : Bool) (n : Node)
  | plus (id : Nat) (greedy : Bool) (n : Node)

namespace Node

def copies (make : Nat → Node × Nat) : Nat → Nat → Node × Nat
  | 0, id => (.empty, id)
  | 1, id => make id
  | k + 1, id =>
    let (first, mid) := make id
    let (rest, last) := copies make k mid
    (.seq first rest, last)

-- Up to so many copies; each further one is only tried behind the one before it.
def options (make : Nat → Node × Nat) (greedy : Bool) : Nat → Nat → Node × Nat
  | 0, id => (.empty, id)
  | k + 1, id =>
    let (first, mid) := make (id + 1)
    let (rest, last) := options make greedy k mid
    (.opt id greedy (.seq first rest), last)

def ofExpr : Expr → Nat → Node × Nat
  | .empty, id => (.empty, id)
  | .set s, id => (.set s, id)
  | .look l, id => (.look l, id)
  | .group i e, id =>
    let (n, last) := ofExpr e id
    (.group i n, last)
  | .seq a b, id =>
    let (x, mid) := ofExpr a id
    let (y, last) := ofExpr b mid
    (.seq x y, last)
  | .alt a b, id =>
    let (x, mid) := ofExpr a (id + 1)
    let (y, last) := ofExpr b mid
    (.alt id x y, last)
  | .rep least none greedy e, id =>
    if least = 0 then
      if e.maybeEmpty then
        let (n, last) := ofExpr e (id + 2)
        (.opt id greedy (.plus (id + 1) greedy n), last)
      else
        let (n, last) := ofExpr e (id + 1)
        (.star id greedy n, last)
    else
      let (front, mid) := copies (ofExpr e) (least - 1) id
      let (n, last) := ofExpr e (mid + 1)
      (.seq front (.plus mid greedy n), last)
  | .rep least (some most) greedy e, id =>
    let (front, mid) := copies (ofExpr e) least id
    let (back, last) := options (ofExpr e) greedy (most - least) mid
    (.seq front back, last)

end Node

end LiveHighlight.Pattern
