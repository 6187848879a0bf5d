import LiveHighlight.Json.Query

-- The written form of queries: parenthesised node patterns with capture names behind them,
-- anchors, roles, settings, and comments that run from a semicolon to the end of the line.

namespace LiveHighlight.Json.Query

inductive Token where
  | opening
  | closing
  | anchor
  | capture (name : String)
  | quoted (content : List Char)
  | word (name : String)
  | role (name : String)
  | directive (name : String)

def isNameChar (c : Char) : Bool := c.isAlphanum || c == '_' || c == '-' || c == '.'

def isDirectiveChar (c : Char) : Bool := isNameChar c || c == '!' || c == '?'

def quoted? : List Char → Option (List Char × List Char)
  | [] => none
  | '"' :: rest => some ([], rest)
  | '\\' :: c :: rest =>
    let meant := if c == 'n' then '\n' else if c == 't' then '\t' else if c == 'r' then '\r' else c
    (quoted? rest).map fun r => (meant :: r.1, r.2)
  | c :: rest => (quoted? rest).map fun r => (c :: r.1, r.2)

-- Each token takes a character at least, so the length of the text bounds their number.
def tokens? (bound : Nat) (t : List Char) : Option (List Token) :=
  match bound, t with
  | _, [] => some []
  | 0, _ :: _ => none
  | bound + 1, c :: rest =>
    if c.isWhitespace then tokens? bound rest
    else if c == ';' then tokens? bound (rest.dropWhile (· != '\n'))
    else if c == '(' then (tokens? bound rest).map (.opening :: ·)
    else if c == ')' then (tokens? bound rest).map (.closing :: ·)
    else if c == '.' then (tokens? bound rest).map (.anchor :: ·)
    else if c == '"' then
      match quoted? rest with
      | none => none
      | some (content, behind) => (tokens? bound behind).map (.quoted content :: ·)
    else if c == '@' || c == '#' then
      let (name, behind) := rest.span isDirectiveChar
      if name.isEmpty then none
      else
        let word := String.ofList name
        (tokens? bound behind).map ((if c == '@' then .capture word else .directive word) :: ·)
    else if isNameChar c then
      let (name, behind) := (c :: rest).span isNameChar
      match behind with
      | ':' :: more => (tokens? bound more).map (.role (String.ofList name) :: ·)
      | _ => (tokens? bound behind).map (.word (String.ofList name) :: ·)
    else none

def captures : List Token → List String × List Token
  | .capture n :: rest =>
    let (names, behind) := captures rest
    (n :: names, behind)
  | ts => ([], ts)

def closedNode (k : Kind) (children : List ChildPattern) (closed : Bool)
    (behind : List Token) : NodePattern × List Token :=
  let (names, more) := captures behind
  (.named k children closed names, more)

def arguments : List Token → Option (List String × List Token)
  | .closing :: rest => some ([], rest)
  | .quoted content :: rest =>
    (arguments rest).map fun r => (String.ofList content :: r.1, r.2)
  | .word n :: rest => (arguments rest).map fun r => (n :: r.1, r.2)
  | .capture n :: rest => (arguments rest).map fun r => (n :: r.1, r.2)
  | _ => none

-- Only a setting says anything about a match.
def setting (name : String) (given : List String) : List (String × String) :=
  match name, given with
  | "set!", [k, v] => [(k, v)]
  | _, _ => []

def symbol? : List Char → Option Char
  | [c] => if ['{', '}', '[', ']', ',', ':', '"'].contains c then some c else none
  | _ => none

mutual

def node? (bound : Nat) (ts : List Token) :
    Option (NodePattern × List (String × String) × List Token) :=
  match bound, ts with
  | bound + 1, .opening :: .word k :: rest =>
    match Kind.ofName? k with
    | none => none
    | some kind =>
      (inside? bound none false rest).map fun r =>
        let (p, behind) := closedNode kind r.1 r.2.1 r.2.2.2
        (p, r.2.2.1, behind)
  | _ + 1, .quoted content :: rest =>
    (symbol? content).map fun m =>
      let (names, behind) := captures rest
      (.mark m names, [], behind)
  | _, _ => none

def inside? (bound : Nat) (role : Option Role) (anchored : Bool) (ts : List Token) :
    Option (List ChildPattern × Bool × List (String × String) × List Token) :=
  match bound, ts with
  | 0, _ => none
  | _ + 1, .closing :: rest => some ([], anchored, [], rest)
  | bound + 1, .anchor :: rest => inside? bound role true rest
  | bound + 1, .role n :: rest =>
    match Role.ofName? n with
    | none => none
    | some r => inside? bound (some r) anchored rest
  | bound + 1, .opening :: .directive d :: rest =>
    match arguments rest with
    | none => none
    | some (given, behind) =>
      (inside? bound role anchored behind).map fun r =>
        (r.1, r.2.1, setting d given ++ r.2.2.1, r.2.2.2)
  | bound + 1, ts =>
    match node? bound ts with
    | none => none
    | some (p, settings, behind) =>
      (inside? bound none false behind).map fun r =>
        (.child role anchored p :: r.1, r.2.1, settings ++ r.2.2.1, r.2.2.2)

end

-- Directives behind the pattern of a group, up to the closing parenthesis of the group.
def groupEnd? (bound : Nat) (ts : List Token) : Option (List (String × String) × List Token) :=
  match bound, ts with
  | _ + 1, .closing :: rest => some ([], rest)
  | bound + 1, .opening :: .directive d :: rest =>
    match arguments rest with
    | none => none
    | some (given, behind) =>
      (groupEnd? bound behind).map fun r => (setting d given ++ r.1, r.2)
  | _, _ => none

def isGroup : List Token → Bool
  | .opening :: .opening :: _ => true
  | .opening :: .quoted _ :: _ => true
  | _ => false

def rules? (bound : Nat) (ts : List Token) : Option Query :=
  match bound, ts with
  | _, [] => some []
  | 0, _ :: _ => none
  | bound + 1, ts =>
    if isGroup ts then
      match node? bound (ts.drop 1) with
      | none => none
      | some (p, settings, behind) =>
        match groupEnd? bound behind with
        | none => none
        | some (more, rest) => (rules? bound rest).map (⟨p, settings ++ more⟩ :: ·)
    else
      match node? bound ts with
      | none => none
      | some (p, settings, behind) => (rules? bound behind).map (⟨p, settings⟩ :: ·)

-- A query, unless it names an unknown kind, role or mark or its form is broken.
def read? (t : Text) : Option Query :=
  match tokens? t.length t with
  | none => none
  | some ts => rules? (2 * ts.length + 2) ts

def captureNames (t : Text) : List String :=
  (((tokens? t.length t).getD []).filterMap fun
    | .capture n => some n
    | _ => none).eraseDups

end LiveHighlight.Json.Query
