import LiveHighlight.Yaml.Token

-- The nodes of a YAML stream, with aliases replaced by what they stand for.

namespace LiveHighlight.Yaml

inductive Node where
  | scalar (text : Text) (isPlain : Bool) (tag : Option Text)
  | sequence (items : List Node)
  | mapping (entries : List (Node × Node))
  -- An alias inside the very node that it names.
  | endless

namespace Node

def empty : Node := .scalar [] true none

end Node

-- An anchor with a number of its own; its node is there once it is complete.
structure Anchor where
  name : Text
  number : Nat
  node : Option Node

structure Parse where
  tokens : List Token
  anchors : List Anchor
  prefixes : List (Text × Text)

namespace Parse

def peek? (p : Parse) : Option Token := p.tokens.head?

def skip (p : Parse) : Parse := { p with tokens := p.tokens.drop 1 }

def isAt (p : Parse) (l : List Token) : Bool :=
  match p.peek? with
  | some t => l.contains t
  | none => false

def resolve? (p : Parse) (name : Text) : Option Node :=
  (p.anchors.find? fun a => a.name == name).map fun a => a.node.getD .endless

def declare (p : Parse) (name : Option Text) : Parse :=
  match name with
  | none => p
  | some n => { p with anchors := ⟨n, p.anchors.length, none⟩ :: p.anchors }

-- Fills in the anchor that was declared with so many others before it.
def complete (p : Parse) (name : Option Text) (number : Nat) (n : Node) : Parse :=
  match name with
  | none => p
  | some _ =>
    { p with anchors := p.anchors.map fun a =>
        if a.number = number then { a with node := some n } else a }

structure Properties where
  anchor : Option Text
  tag : Option Text

def fullTag? (p : Parse) (handle suffix : Text) : Option Text :=
  if handle.isEmpty then some suffix
  else (p.prefixes.find? fun h => h.1 == handle).map fun h => h.2 ++ suffix

def properties? (p : Parse) : Option (Properties × Parse) :=
  match p.tokens with
  | .anchor a :: .tag h s :: rest =>
    (p.fullTag? h s).map fun t => (⟨some a, some t⟩, { p with tokens := rest })
  | .anchor a :: rest => some (⟨some a, none⟩, { p with tokens := rest })
  | .tag h s :: .anchor a :: rest =>
    (p.fullTag? h s).map fun t => (⟨some a, some t⟩, { p with tokens := rest })
  | .tag h s :: rest =>
    (p.fullTag? h s).map fun t => (⟨none, some t⟩, { p with tokens := rest })
  | _ => some (⟨none, none⟩, p)

mutual

def node? (bound : Nat) (inBlock unindented : Bool) (p : Parse) : Option (Node × Parse) :=
  match bound with
  | 0 => none
  | bound + 1 =>
    match p.peek? with
    | some (.alias name) => (p.resolve? name).map fun n => (n, p.skip)
    | _ =>
      match p.properties? with
      | none => none
      | some (own, q) =>
        let number := q.anchors.length
        let declared := q.declare own.anchor
        let finish := fun (r : Node × Parse) => (r.1, r.2.complete own.anchor number r.1)
        let items := fun (l : List Node × Parse) => finish (.sequence l.1, l.2)
        let entries := fun (l : List (Node × Node) × Parse) => finish (.mapping l.1, l.2)
        match q.peek? with
        | some .entry =>
          if unindented then (unindentedItems? bound declared).map items
          else if own.anchor.isSome || own.tag.isSome then
            some (finish (.scalar [] true own.tag, declared))
          else none
        | some (.scalar t isPlain) => some (finish (.scalar t isPlain own.tag, declared.skip))
        | some .flowSequence => (flowItems? bound true declared.skip).map items
        | some .flowMapping => (flowEntries? bound true declared.skip).map entries
        | some .blockSequence =>
          if inBlock then (blockItems? bound declared.skip).map items
          else if own.anchor.isSome || own.tag.isSome then
            some (finish (.scalar [] true own.tag, declared))
          else none
        | some .blockMapping =>
          if inBlock then (blockEntries? bound declared.skip).map entries
          else if own.anchor.isSome || own.tag.isSome then
            some (finish (.scalar [] true own.tag, declared))
          else none
        | _ =>
          if own.anchor.isSome || own.tag.isSome then
            some (finish (.scalar [] true own.tag, declared))
          else none

def nodeUnless? (bound : Nat) (inBlock unindented : Bool) (stops : List Token) (p : Parse) :
    Option (Node × Parse) :=
  match bound with
  | 0 => none
  | bound + 1 =>
    if p.isAt stops then some (.empty, p) else node? bound inBlock unindented p

def blockItems? (bound : Nat) (p : Parse) : Option (List Node × Parse) :=
  match bound with
  | 0 => none
  | bound + 1 =>
    match p.peek? with
    | some .entry =>
      match nodeUnless? bound true false [.entry, .blockEnd] p.skip with
      | none => none
      | some (n, q) => (blockItems? bound q).map fun r => (n :: r.1, r.2)
    | some .blockEnd => some ([], p.skip)
    | _ => none

def unindentedItems? (bound : Nat) (p : Parse) : Option (List Node × Parse) :=
  match bound with
  | 0 => none
  | bound + 1 =>
    match p.peek? with
    | some .entry =>
      match nodeUnless? bound true false [.entry, .key, .value, .blockEnd] p.skip with
      | none => none
      | some (n, q) => (unindentedItems? bound q).map fun r => (n :: r.1, r.2)
    | _ => some ([], p)

def blockEntries? (bound : Nat) (p : Parse) : Option (List (Node × Node) × Parse) :=
  match bound with
  | 0 => none
  | bound + 1 =>
    match p.peek? with
    | some .key =>
      match nodeUnless? bound true true [.key, .value, .blockEnd] p.skip with
      | none => none
      | some (k, q) =>
        let value :=
          if q.isAt [.value] then nodeUnless? bound true true [.key, .value, .blockEnd] q.skip
          else some (.empty, q)
        match value with
        | none => none
        | some (v, r) => (blockEntries? bound r).map fun l => ((k, v) :: l.1, l.2)
    | some .blockEnd => some ([], p.skip)
    | _ => none

-- Items between brackets; one with a key is a mapping of a single entry.
def flowItems? (bound : Nat) (first : Bool) (p : Parse) : Option (List Node × Parse) :=
  match bound with
  | 0 => none
  | bound + 1 =>
    if p.isAt [.flowSequenceEnd] then some ([], p.skip)
    else if !first && !p.isAt [.comma] then none
    else
      let q := if first then p else p.skip
      if q.isAt [.flowSequenceEnd] then some ([], q.skip)
      else
        let item :=
          if q.isAt [.key] then singleEntry? bound q.skip
          else node? bound false false q
        match item with
        | none => none
        | some (n, r) => (flowItems? bound false r).map fun l => (n :: l.1, l.2)

-- Where the key itself is missing, the token that says so is used up.
def singleEntry? (bound : Nat) (p : Parse) : Option (Node × Parse) :=
  match bound with
  | 0 => none
  | bound + 1 =>
    let key :=
      if p.isAt [.value, .comma, .flowSequenceEnd] then some (.empty, p.skip)
      else node? bound false false p
    match key with
    | none => none
    | some (k, q) =>
      let value :=
        if q.isAt [.value] then nodeUnless? bound false false [.comma, .flowSequenceEnd] q.skip
        else some (.empty, q)
      value.map fun v => (.mapping [(k, v.1)], v.2)

def flowEntries? (bound : Nat) (first : Bool) (p : Parse) : Option (List (Node × Node) × Parse) :=
  match bound with
  | 0 => none
  | bound + 1 =>
    if p.isAt [.flowMappingEnd] then some ([], p.skip)
    else if !first && !p.isAt [.comma] then none
    else
      let q := if first then p else p.skip
      if q.isAt [.flowMappingEnd] then some ([], q.skip)
      else
        let keyed := q.isAt [.key]
        let key :=
          if keyed then nodeUnless? bound false false [.value, .comma, .flowMappingEnd] q.skip
          else node? bound false false q
        match key with
        | none => none
        | some (k, r) =>
          let value :=
            if keyed && r.isAt [.value] then
              nodeUnless? bound false false [.comma, .flowMappingEnd] r.skip
            else some (.empty, r)
          match value with
          | none => none
          | some (v, u) => (flowEntries? bound false u).map fun l => ((k, v) :: l.1, l.2)

end

-- One version at most, and tag prefixes with different handles.
def directives? (versioned : Bool) (p : Parse) : List Token → Option Parse
  | .version major minor :: rest =>
    if versioned || major ≠ 1 || (minor ≠ 1 && minor ≠ 2) then none
    else directives? true { p with tokens := rest } rest
  | .tagPrefix h full :: rest =>
    if p.prefixes.any fun x => x.1 == h then none
    else directives? versioned { p with tokens := rest, prefixes := p.prefixes ++ [(h, full)] } rest
  | _ => some p

def usualPrefixes : List (Text × Text) :=
  [(['!'], ['!']), (['!', '!'], "tag:yaml.org,2002:".toList)]

def isDirective : Token → Bool
  | .version _ _ => true
  | .tagPrefix _ _ => true
  | _ => false

-- What stands where a document's content may: nothing before the next document or the end.
def content? (p : Parse) : Option (Node × Parse) :=
  let missing : Bool := match p.peek? with
    | none => true
    | some t => isDirective t || t == .documentStart || t == .documentEnd
  if missing then some (.empty, p) else node? (4 * p.tokens.length + 4) true false p

def document? (implicit : Bool) (ts : List Token) : Option (Node × List Token) :=
  match directives? false ⟨ts, [], []⟩ ts with
  | none => none
  | some p =>
    let known := { p with prefixes := p.prefixes ++ usualPrefixes }
    let explicit := known.isAt [.documentStart]
    let content :=
      if explicit then content? known.skip
      else if implicit && !(ts.head?.any isDirective) then node? (4 * ts.length + 4) true false known
      else none
    content.map fun r => (r.1, if r.2.isAt [.documentEnd] then r.2.skip.tokens else r.2.tokens)

def documents? (implicit : Bool) : Nat → List Token → Option (List Node)
  | 0, _ => none
  | bound + 1, ts =>
    let front := if implicit then ts else ts.dropWhile (· == .documentEnd)
    if front.isEmpty then some []
    else
      match document? implicit front with
      | none => none
      | some (n, rest) => (documents? false bound rest).map (n :: ·)

end Parse

def read? (t : Text) : Option (List Node) :=
  match tokens? t with
  | none => none
  | some ts => Parse.documents? true (ts.length + 1) ts

end LiveHighlight.Yaml
