import LiveHighlight.Pattern.Expr

-- Matching. A branching place of the pattern that was tried at a place of the text is not tried
-- there again: it failed, or it has come round without taking a character.

namespace LiveHighlight.Pattern

abbrev Groups := List (Nat × Span)

abbrev Tried := List (Nat × Nat)

abbrev Outcome := Option (Cursor × Groups) × Tried

abbrev Step := Cursor → Groups → Tried → Outcome

namespace Step

def fail : Step := fun _ _ tried => (none, tried)

def finish : Step := fun c g tried => (some (c, g), tried)

def orElse (first second : Step) : Step := fun c g tried =>
  match first c g tried with
  | (some found, later) => (some found, later)
  | (none, later) => second c g later

def prefer (greedy : Bool) (more less : Step) : Step :=
  if greedy then orElse more less else orElse less more

def once (id : Nat) (s : Step) : Step := fun c g tried =>
  if tried.contains (id, c.offset) then (none, tried) else s c g ((id, c.offset) :: tried)

-- The loop is entered at most once at each place, so the places left bound the rounds.
def loop (id : Nat) (greedy : Bool) (body : Step → Step) (leave : Step) : Nat → Step
  | 0 => fail
  | rounds + 1 => once id (prefer greedy (body (loop id greedy body leave rounds)) leave)

end Step

def Node.run : Node → Step → Step
  | .empty, next => next
  | .set s, next => fun c g tried =>
    match c.rest with
    | [] => (none, tried)
    | x :: rest => if s.contains x then next (c.advance x rest) g tried else (none, tried)
  | .look l, next => fun c g tried => if l.holds c then next c g tried else (none, tried)
  | .group i n, next => fun c g tried =>
    n.run (fun d later => next d ((i, ⟨c.offset, d.offset⟩) :: later)) c g tried
  | .seq a b, next => a.run (b.run next)
  | .alt id a b, next => Step.once id (Step.orElse (a.run next) (b.run next))
  | .opt id greedy n, next => Step.once id (Step.prefer greedy (n.run next) next)
  | .star id greedy n, next => fun c =>
    Step.loop id greedy n.run next (c.rest.length + 1) c
  | .plus id greedy n, next => fun c =>
    n.run (Step.loop id greedy n.run next (c.rest.length + 1)) c

structure Match where
  start : Cursor
  stop : Cursor
  groups : Groups

namespace Match

def span (m : Match) : Span := ⟨m.start.offset, m.stop.offset⟩

def isEmpty (m : Match) : Bool := m.start.offset == m.stop.offset

-- Group 0 is the whole match.
def group? (m : Match) (i : Nat) : Option Span :=
  if i = 0 then some m.span else (m.groups.find? fun g => g.1 == i).map (·.2)

def textOf (m : Match) (s : Span) : Text :=
  match Text.split? m.start.rest ⟨s.start - m.start.offset, s.stop - m.start.offset⟩ with
  | some (_, middle, _) => middle
  | none => []

end Match

end Pattern

structure Pattern where
  node : Pattern.Node
  names : List (String × Nat)

namespace Pattern

def ofExpr (e : Expr) (names : List (String × Nat)) : Pattern := ⟨(Node.ofExpr e 0).1, names⟩

def matchAt? (p : Pattern) (c : Cursor) : Option Match :=
  (p.node.run Step.finish c [] []).1.map fun found => ⟨c, found.1, found.2⟩

def find? (p : Pattern) (c : Cursor) : Option Match := c.onward.findSome? p.matchAt?

-- An empty match where the last one ended is passed over for the next from one character on.
def findAfter? (p : Pattern) (c : Cursor) (lastStop : Option Nat) : Option Match :=
  match p.find? c with
  | none => none
  | some m =>
    if m.isEmpty ∧ lastStop = some m.stop.offset then
      match c.next? with
      | none => none
      | some d => p.find? d
    else some m

-- Each match but an empty first one takes the search forward.
def row (p : Pattern) (c : Cursor) (lastStop : Option Nat) : Nat → List Match
  | 0 => []
  | bound + 1 =>
    match p.findAfter? c lastStop with
    | none => []
    | some m => m :: row p m.stop (some m.stop.offset) bound

def allMatches (p : Pattern) (t : Text) : List Match := p.row (.start t) none (t.length + 2)

end Pattern

end LiveHighlight
