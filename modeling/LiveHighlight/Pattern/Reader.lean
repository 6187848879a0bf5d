import LiveHighlight.Pattern.Search
import LiveHighlight.Text.Digits

-- The written form of patterns. Reading fails on anything that is no pattern; which fault it was
-- is not told apart.

namespace LiveHighlight.Pattern

-- Settings that hold from where they are made to the end of the group.
structure Flags where
  ignoreCase : Bool
  multiLine : Bool
  dotAll : Bool
  -- Exchanges greedy and lazy repetition.
  swapGreed : Bool
  -- Line starts and ends also know the carriage return.
  linePairs : Bool
  -- Blanks and comments in the pattern do not count.
  spaced : Bool
  -- Classes, word boundaries and case know more than ASCII.
  unicode : Bool

def Flags.cased (f : Flags) (s : CharSet) : CharSet :=
  if f.ignoreCase then if f.unicode then .caseless s else .asciiCaseless s else s

def Flags.wordLook (f : Flags) (l : WordLook) : Look := if f.unicode then .word l else .asciiWord l

namespace Reader

structure State where
  rest : Text
  flags : Flags
  groups : Nat
  names : List (String × Nat)

abbrev Read := StateT State Option

def refuse {α : Type} : Read α := fun _ => none

def peek? : Read (Option Char) := fun s => some (s.rest.head?, s)

def bump : Read Unit := fun s => some ((), { s with rest := s.rest.drop 1 })

def flags : Read Flags := fun s => some (s.flags, s)

def setFlags (f : Flags) : Read Unit := fun s => some ((), { s with flags := f })

-- Blanks and comments at the front. A comment runs to the end of its line.
def dropSpace : Bool → Text → Text
  | _, [] => []
  | true, c :: rest => dropSpace (c != '\n') rest
  | false, c :: rest =>
    if Unicode.isBlank c then dropSpace false rest
    else if c == '#' then dropSpace true rest
    else c :: rest

def skipSpace : Read Unit := fun s =>
  some ((), if s.flags.spaced then { s with rest := dropSpace false s.rest } else s)

def bumpSpace : Read Unit := do
  bump
  skipSpace

def peek : Read Char := do
  match ← peek? with
  | some c => pure c
  | none => refuse

def expect (c : Char) : Read Unit := do
  if (← peek) == c then bump else refuse

def accept (word : String) : Read Bool := fun s =>
  match Text.strip? word.toList s.rest with
  | some behind => some (true, { s with rest := behind })
  | none => some (false, s)

def acceptAny : List String → Read Bool
  | [] => pure false
  | word :: rest => do
    if ← accept word then return true else acceptAny rest

def startsWithAny (words : List String) : Read Bool := fun s =>
  some (words.any fun w => (Text.strip? w.toList s.rest).isSome, s)

def isSign (c : Char) : Bool :=
  c.toNat < 128 && !c.isAlphanum && c != '<' && c != '>'

def hexDigits : Nat → Nat → Read Nat
  | 0, value => pure value
  | count + 1, value => do
    match Text.hexValue? (← peek) with
    | none => refuse
    | some d =>
      bumpSpace
      hexDigits count (16 * value + d)

def bracedHex : Nat → Nat → Bool → Read Nat
  | 0, _, _ => refuse
  | bound + 1, value, any => do
    let c ← peek
    if c == '\x7d' then
      bumpSpace
      if any then pure value else refuse
    else
      match Text.hexValue? c with
      | none => refuse
      | some d =>
        bumpSpace
        bracedHex bound (16 * value + d) true

def remaining : Read Nat := fun s => some (s.rest.length, s)

-- Without Unicode, two digits outside of braces name a byte, and only those of ASCII are texts.
def hexChar (digits : Nat) : Read Char := do
  bumpSpace
  let f ← flags
  let braced := (← peek) == '\x7b'
  let code ←
    if braced then do
      bumpSpace
      bracedHex ((← remaining) + 1) 0 false
    else hexDigits digits 0
  if digits == 2 && !braced && !f.unicode && 128 ≤ code then refuse
  match Text.charOfCode? code with
  | some c => pure c
  | none => refuse

inductive Primitive where
  | char (c : Char)
  | set (s : CharSet)
  | look (l : Look)

def shorthandSet (c : Char) (unicode : Bool) : CharSet :=
  match c, unicode with
  | 'd', true => .digit
  | 's', true => .blank
  | 'w', true => .word
  | 'd', false => .ofIntervals [(48, 57)]
  | 's', false => .ofIntervals [(9, 13), (32, 32)]
  | _, _ => .ofIntervals [(48, 57), (65, 90), (95, 95), (97, 122)]

def takeName : Text → Text × Text := fun t => t.span fun c => c.isAlpha || c == '-'

-- Braces that hold no name are left to be read as a repetition.
def boundary : Read WordLook := fun s =>
  let space := fun t => if s.flags.spaced then dropSpace false t else t
  match s.rest with
  | '\x7b' :: inner =>
    let (name, behind) := takeName (space inner)
    if (space inner).isEmpty then none
    else if name.isEmpty then some (.boundary, s)
    else
      match space behind with
      | '\x7d' :: rest =>
        let after := { s with rest := rest }
        match String.ofList name with
        | "start" => some (.start, after)
        | "end" => some (.stop, after)
        | "start-half" => some (.startHalf, after)
        | "end-half" => some (.stopHalf, after)
        | _ => none
      | _ => none
  | _ => some (.boundary, s)

def splitAt? (mark : Text) : Text → Option (Text × Text)
  | [] => none
  | c :: rest =>
    match Text.strip? mark (c :: rest) with
    | some behind => some ([], behind)
    | none => (splitAt? mark rest).map fun halves => (c :: halves.1, halves.2)

-- The property of a name, or of a name and a value. An inequality reads like an equation.
def property? (t : Text) : Option Unicode.Property :=
  match ((splitAt? ['!', '='] t).or (splitAt? [':'] t)).or (splitAt? ['='] t) with
  | some (name, value) => Unicode.Property.valued? name value
  | none => Unicode.Property.named? t

def propertyName : Nat → Text → Read Text
  | 0, _ => refuse
  | bound + 1, name => do
    bumpSpace
    let c ← peek
    if c == '\x7d' then
      bump
      return name
    else propertyName bound (name ++ [c])

def propertySet (negated : Bool) : Read CharSet := do
  bumpSpace
  let c ← peek
  let name ←
    if c == '\x7b' then propertyName ((← remaining) + 1) []
    else if c == '\\' then refuse
    else do
      bump
      pure [c]
  let f ← flags
  match property? name with
  | none => refuse
  | some p =>
    let set := f.cased (.property p)
    if f.unicode then return if negated then .complement set else set else refuse

-- Digits would refer back to a group, which no pattern can.
def escape : Read Primitive := do
  bump
  let c ← peek
  let f ← flags
  match c with
  | 'x' => return .char (← hexChar 2)
  | 'u' => return .char (← hexChar 4)
  | 'U' => return .char (← hexChar 8)
  | 'd' | 's' | 'w' =>
    bump
    return .set (shorthandSet c f.unicode)
  | 'D' | 'S' | 'W' =>
    bump
    if f.unicode then return .set (.complement (shorthandSet c.toLower true)) else refuse
  | 'p' => return .set (← propertySet false)
  | 'P' => return .set (← propertySet true)
  | _ =>
    bump
    if isSign c then return .char c
    match c with
    | 'a' => return .char '\x07'
    | 'f' => return .char '\x0c'
    | 't' => return .char '\t'
    | 'n' => return .char '\n'
    | 'r' => return .char '\r'
    | 'v' => return .char '\x0b'
    | 'A' => return .look .textStart
    | 'z' => return .look .textEnd
    | 'b' => return .look (f.wordLook (← boundary))
    | 'B' => return .look (f.wordLook .noBoundary)
    | '<' => return .look (f.wordLook .start)
    | '>' => return .look (f.wordLook .stop)
    | _ => refuse

def primitive : Read Primitive := do
  let c ← peek
  let f ← flags
  match c with
  | '\\' => escape
  | '.' =>
    bump
    if f.unicode then return .set (if f.dotAll then .all else .dot f.linePairs) else refuse
  | '^' =>
    bump
    return .look (if !f.multiLine then .textStart else if f.linePairs then .lineStart else .feedStart)
  | '$' =>
    bump
    return .look (if !f.multiLine then .textEnd else if f.linePairs then .lineEnd else .feedEnd)
  | _ =>
    bump
    return .char c

def Primitive.expr (f : Flags) : Primitive → Expr
  | .char c => .set (f.cased (.single c))
  | .set s => .set s
  | .look l => .look l

-- Bracketed classes.

def classItem : Read Primitive := do
  if (← peek) == '\\' then escape
  else
    let c ← peek
    bump
    return .char c

def peekBeyond? : Read (Option Char) := fun s =>
  let behind := s.rest.drop 1
  some ((if s.flags.spaced then dropSpace false behind else behind).head?, s)

-- Without Unicode, classes are made of bytes, and only those of ASCII are texts.
def classEnd (p : Primitive) : Read Char := do
  let f ← flags
  match p with
  | .char c => if f.unicode || c.toNat < 128 then return c else refuse
  | _ => refuse

def classRange : Read CharSet := do
  let first ← classItem
  skipSpace
  let c ← peek
  let beyond ← peekBeyond?
  if c != '-' || beyond == some ']' || beyond == some '-' then
    match first with
    | .set s => return s
    | p => return .single (← classEnd p)
  else
    bumpSpace
    let _ ← peek
    let last ← classItem
    let a ← classEnd first
    let b ← classEnd last
    if a ≤ b then return .interval a.toNat b.toNat else refuse

def namedClass? : Read (Option CharSet) := fun s =>
  match s.rest with
  | '[' :: ':' :: inner =>
    let (negated, body) := match inner with
      | '^' :: more => (true, more)
      | _ => (false, inner)
    let (name, behind) := body.span (· != ':')
    match behind with
    | ':' :: ']' :: rest =>
      match CharSet.named? (String.ofList name) with
      | some set =>
        let cased := s.flags.cased set
        if negated && !s.flags.unicode then none
        else some (some (if negated then .complement cased else cased), { s with rest := rest })
      | none => some (none, s)
    | _ => some (none, s)
  | _ => some (none, s)

inductive SetOp where
  | inter
  | diff
  | symmDiff

def setOp? : Read (Option SetOp) := do
  if ← accept "&&" then return some .inter
  if ← accept "--" then return some .diff
  if ← accept "~~" then return some .symmDiff
  return none

def combine (f : Flags) (left : Option (CharSet × SetOp)) (right : CharSet) : CharSet :=
  match left with
  | none => right
  | some (l, .inter) => .inter (f.cased l) (f.cased right)
  | some (l, .diff) => (f.cased l).diff (f.cased right)
  | some (l, .symmDiff) => (f.cased l).symmDiff (f.cased right)

-- Hyphens at the front stand for themselves.
def leadingHyphens : Nat → List CharSet → Read (List CharSet)
  | 0, items => pure items
  | bound + 1, items => do
    if (← peek) == '-' then
      bumpSpace
      leadingHyphens bound (items ++ [.single '-'])
    else pure items

mutual

def bracketed (bound : Nat) : Read CharSet :=
  match bound with
  | 0 => refuse
  | bound + 1 => do
    let f ← flags
    bumpSpace
    let negated := (← peek) == '^'
    if negated then bumpSpace
    let hyphens ← leadingHyphens ((← remaining) + 1) []
    let c ← peek
    let items ←
      if hyphens.isEmpty && c == ']' then do
        bumpSpace
        pure [CharSet.single ']']
      else pure hyphens
    let set ← classBody bound none items
    let cased := f.cased set
    if negated then
      if f.unicode then return .complement cased else refuse
    else return cased

def classBody (bound : Nat) (left : Option (CharSet × SetOp)) (items : List CharSet) :
    Read CharSet :=
  match bound with
  | 0 => refuse
  | bound + 1 => do
    let f ← flags
    skipSpace
    let c ← peek
    if c == ']' then
      bump
      return combine f left (.ofList items)
    else if c == '[' then
      match ← namedClass? with
      | some set => classBody bound left (items ++ [set])
      | none =>
        let inner ← bracketed bound
        classBody bound left (items ++ [inner])
    else
      match ← setOp? with
      | some op => classBody bound (some (combine f left (.ofList items), op)) []
      | none =>
        let item ← classRange
        classBody bound left (items ++ [item])

end

-- Repetition.

def decimal? : Read (Option Nat) := fun s =>
  let space := fun t => if s.flags.spaced then dropSpace false t else t
  let digitsFrom := fun (t : Text) =>
    let rec go : Nat → Text → List Char → List Char × Text
      | 0, t, acc => (acc, t)
      | bound + 1, t, acc =>
        match t with
        | c :: rest => if c.isDigit then go bound (space rest) (acc ++ [c]) else (acc, t)
        | [] => (acc, [])
    go t.length t []
  let (digits, behind) := digitsFrom (s.rest.dropWhile Unicode.isBlank)
  let rest := space (behind.dropWhile Unicode.isBlank)
  let value := Text.decimalValue digits
  if digits.isEmpty then some (none, { s with rest := rest })
  else if value < 0x100000000 then some (some value, { s with rest := rest })
  else none

def counted : Read (Nat × Option Nat) := do
  bumpSpace
  let _ ← peek
  let least ← decimal?
  let bounds ←
    if (← peek) == ',' then do
      bumpSpace
      if (← peek) == '\x7d' then
        match least with
        | some n => pure (n, none)
        | none => refuse
      else
        match least, ← decimal? with
        | some n, some m => pure (n, some m)
        | _, _ => refuse
    else
      match least with
      | some n => pure (n, some n)
      | none => refuse
  expect '\x7d'
  skipSpace
  match bounds with
  | (n, some m) => if n ≤ m then return bounds else refuse
  | _ => return bounds

def greed : Read Bool := do
  let f ← flags
  match ← peek? with
  | some '?' =>
    bump
    return f.swapGreed
  | _ => return !f.swapGreed

def withFlag (f : Flags) (c : Char) (on : Bool) : Option Flags :=
  match c with
  | 'i' => some { f with ignoreCase := on }
  | 'm' => some { f with multiLine := on }
  | 's' => some { f with dotAll := on }
  | 'U' => some { f with swapGreed := on }
  | 'R' => some { f with linePairs := on }
  | 'x' => some { f with spaced := on }
  | 'u' => some { f with unicode := on }
  | _ => none

-- The letters up to the colon or the closing parenthesis, and the flags they lead to.
def flagLetters : Nat → Flags → Bool → List Char → Read (Flags × List Char)
  | 0, _, _, _ => refuse
  | bound + 1, f, on, seen => do
    let c ← peek
    if c == ':' || c == ')' then
      if seen.getLast? == some '-' then refuse else return (f, seen)
    else if seen.contains c then refuse
    else if c == '-' then
      bump
      flagLetters bound f false (seen ++ [c])
    else
      match withFlag f c on with
      | none => refuse
      | some g =>
        bump
        flagLetters bound g on (seen ++ [c])

def isNameStart (c : Char) : Bool := c == '_' || Unicode.isAlphabetic c

def isNameChar (c : Char) : Bool :=
  c == '_' || c == '.' || c == '[' || c == ']' || Unicode.isAlphanumeric c

-- A group name up to its closing angle bracket. No two groups share one.
def groupName (index : Nat) : Read Unit := fun s =>
  let (name, behind) := s.rest.span (· != '>')
  match name, behind with
  | c :: more, _ :: rest =>
    let word := String.ofList name
    if isNameStart c && more.all isNameChar && !(s.names.any fun n => n.1 == word) then
      some ((), { s with rest := rest, names := s.names ++ [(word, index)] })
    else none
  | _, _ => none

def nextGroup : Read Nat := fun s => some (s.groups + 1, { s with groups := s.groups + 1 })

-- A setting matches nothing and cannot be repeated.
structure Item where
  expr : Expr
  repeatable : Bool

def repeatLast (items : List Item) (least : Nat) (most : Option Nat) (greedy : Bool) :
    Read (List Item) :=
  match items with
  | last :: earlier =>
    if last.repeatable then pure (⟨.repeated least most greedy last.expr, true⟩ :: earlier)
    else refuse
  | [] => refuse

mutual

def branches (bound : Nat) : Read Expr :=
  match bound with
  | 0 => refuse
  | bound + 1 => do
    let first ← sequence bound []
    match ← peek? with
    | some '|' =>
      bump
      let others ← branches bound
      return .alt first others
    | _ => return first

-- Items up to the end of the branch; the newest comes first in the list.
def sequence (bound : Nat) (items : List Item) : Read Expr :=
  match bound with
  | 0 => refuse
  | bound + 1 => do
    skipSpace
    match ← peek? with
    | none => return .seqAll (items.reverse.map (·.expr))
    | some '|' => return .seqAll (items.reverse.map (·.expr))
    | some ')' => return .seqAll (items.reverse.map (·.expr))
    | some '(' =>
      let item ← group bound
      sequence bound (item :: items)
    | some '[' =>
      let set ← bracketed (2 * (← remaining) + 2)
      sequence bound (⟨.set set, true⟩ :: items)
    | some '?' =>
      bump
      let more ← repeatLast items 0 (some 1) (← greed)
      sequence bound more
    | some '*' =>
      bump
      let more ← repeatLast items 0 none (← greed)
      sequence bound more
    | some '+' =>
      bump
      let more ← repeatLast items 1 none (← greed)
      sequence bound more
    | some '\x7b' =>
      if items.isEmpty then refuse
      let (least, most) ← counted
      let more ← repeatLast items least most (← greed)
      sequence bound more
    | some _ =>
      let p ← primitive
      sequence bound (⟨p.expr (← flags), true⟩ :: items)

-- A group or a setting. Settings made inside a group end with it.
def group (bound : Nat) : Read Item :=
  match bound with
  | 0 => refuse
  | bound + 1 => do
    bump
    skipSpace
    if ← startsWithAny ["?=", "?!", "?<=", "?<!"] then refuse
    let outer ← flags
    if ← acceptAny ["?P<", "?<"] then
      let index ← nextGroup
      groupName index
      let e ← branches bound
      expect ')'
      setFlags outer
      return ⟨.group index e, true⟩
    else if ← accept "?" then
      let (inner, letters) ← flagLetters ((← remaining) + 1) outer true []
      setFlags inner
      if (← peek) == ')' then
        bump
        if letters.isEmpty then refuse else return ⟨.empty, false⟩
      else
        bump
        let e ← branches bound
        expect ')'
        setFlags outer
        return ⟨e, true⟩
    else
      let index ← nextGroup
      let e ← branches bound
      expect ')'
      setFlags outer
      return ⟨.group index e, true⟩

end

end Reader

def startFlags (ignoreCase dotAll : Bool) : Flags :=
  { ignoreCase := ignoreCase
    multiLine := true
    dotAll := dotAll
    swapGreed := false
    linePairs := true
    spaced := false
    unicode := true }

-- Repetitions are written out before a search, which bounds how much a pattern may ask for.
def weightLimit : Nat := 250000

def read? (t : Text) (ignoreCase dotAll : Bool) : Option Pattern :=
  match Reader.branches (3 * t.length + 4) ⟨t, startFlags ignoreCase dotAll, 0, []⟩ with
  | none => none
  | some (e, s) =>
    if s.rest.isEmpty ∧ e.weight ≤ weightLimit then some (.ofExpr e s.names) else none

end LiveHighlight.Pattern
