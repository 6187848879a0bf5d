import LiveHighlight.Definition
import LiveHighlight.Yaml.Node

-- Definitions in their written form. Every field has a type; keys that are not known are passed
-- over, and a known one may occur once.

namespace LiveHighlight.Definition

open LiveHighlight.Yaml (Node)

def isNull (t : Text) : Bool :=
  t = ['~'] || t = "null".toList || t = "Null".toList || t = "NULL".toList

def nullTag : Text := "tag:yaml.org,2002:null".toList

def text? : Node → Option Text
  | .scalar t _ _ => some t
  | _ => none

-- A value left open, or an unquoted null, is no text. A tag makes it one, except that of null.
def optional? : Node → Option (Option Text)
  | .scalar t false _ => some (some t)
  | .scalar t true none => some (if t.isEmpty || isNull t then none else some t)
  | .scalar t true (some tag) =>
    if tag = nullTag then (if isNull t then some none else none) else some (some t)
  | _ => none

def bool? : Node → Option Bool
  | .scalar t true _ =>
    if t = "true".toList || t = "True".toList || t = "TRUE".toList then some true
    else if t = "false".toList || t = "False".toList || t = "FALSE".toList then some false
    else none
  | _ => none

-- A list or a mapping left open is the empty one.
def items? : Node → Option (List Node)
  | .sequence l => some l
  | .scalar [] true _ => some []
  | _ => none

def entries? : Node → Option (List (Node × Node))
  | .mapping l => some l
  | .scalar [] true _ => some []
  | _ => none

def localTag? : Text → Option Text
  | ['!'] => some ['!']
  | '!' :: rest => some rest
  | _ => none

def choiceName? : Node → Option Text
  | .scalar t isPlain tag =>
    match tag.bind localTag? with
    | none => some t
    | some n => if isPlain && (t.isEmpty || isNull t) then some n else none
  | _ => none

def choice? {α : Type} (name : α → String) (all : List α) (n : Node) : Option α :=
  (choiceName? n).bind fun t => all.find? fun a => (name a).toList == t

def fields? (known : List String) (n : Node) : Option (List (String × Node)) :=
  match entries? n with
  | none => none
  | some l =>
    match l.mapM fun e => (text? e.1).map fun k => (String.ofList k, e.2) with
    | none => none
    | some named =>
      let kept := named.filter fun e => known.contains e.1
      if (kept.map (·.1)).eraseDups.length = kept.length then some kept else none

def field? {α : Type} (fields : List (String × Node)) (key : String) (read : Node → Option α)
    (missing : Option α) : Option α :=
  match fields.find? fun e => e.1 == key with
  | some e => read e.2
  | none => missing

def highlightRule? (n : Node) : Option HighlightRule := do
  let f ← fields? ["beginString", "endString", "regularExpression", "ignoreCase", "isMultiline",
    "description"] n
  let beginString ← field? f "beginString" text? (some [])
  let endString ← field? f "endString" optional? (some none)
  let isPattern ← field? f "regularExpression" bool? (some false)
  let ignoreCase ← field? f "ignoreCase" bool? (some false)
  let isMultiline ← field? f "isMultiline" bool? (some false)
  let description ← field? f "description" optional? (some none)
  return { beginString, endString, isPattern, ignoreCase, isMultiline, description }

def list? {α : Type} (read : Node → Option α) (n : Node) : Option (List α) :=
  (items? n).bind fun l => l.mapM read

-- Of two entries with one category name the later counts; both have to be right.
def highlights? (n : Node) : Option (List (String × List HighlightRule)) := do
  let l ← entries? n
  let read ← l.mapM fun e => do
    let name ← text? e.1
    let rules ← list? highlightRule? e.2
    return (String.ofList name, rules)
  return ofCategories read

-- A kind may be left open. Where there is one, it is a choice.
def outlineKind? : Node → Option (Option OutlineKind)
  | .scalar t isPlain tag =>
    match optional? (.scalar t isPlain tag) with
    | none => none
    | some none => some none
    | some (some _) => (choice? OutlineKind.name OutlineKind.all (.scalar t isPlain tag)).map some
  | _ => none

def outlineRule? (n : Node) : Option OutlineRule := do
  let f ← fields? ["beginString", "keyString", "ignoreCase", "kind", "description"] n
  let beginString ← field? f "beginString" text? (some [])
  let keyString ← field? f "keyString" text? (some [])
  let ignoreCase ← field? f "ignoreCase" bool? (some false)
  let kind ← field? f "kind" outlineKind? (some none)
  let description ← field? f "description" optional? (some none)
  return { beginString, keyString, ignoreCase, kind, description }

def inlineComment? (n : Node) : Option InlineComment := do
  let f ← fields? ["begin", "leadingOnly"] n
  let opening ← field? f "begin" text? none
  let leadingOnly ← field? f "leadingOnly" bool? (some false)
  return { opening, leadingOnly }

def blockComment? (n : Node) : Option BlockComment := do
  let f ← fields? ["begin", "end"] n
  let opening ← field? f "begin" text? none
  let closing ← field? f "end" text? none
  return { opening, closing }

def comments? (n : Node) : Option (List InlineComment × List BlockComment) := do
  let f ← fields? ["inlines", "blocks"] n
  let inlines ← field? f "inlines" (list? inlineComment?) (some [])
  let blocks ← field? f "blocks" (list? blockComment?) (some [])
  return (inlines, blocks)

def ofNode? (n : Node) : Option Definition := do
  let f ← fields? ["kind", "highlights", "outlines", "commentDelimiters"] n
  let kind ← field? f "kind" (choice? DefinitionKind.name DefinitionKind.all) (some .general)
  let highlights ← field? f "highlights" highlights? (some [])
  let outlines ← field? f "outlines" (list? outlineRule?) (some [])
  let comments ← field? f "commentDelimiters" comments? (some ([], []))
  return { kind, highlights, outlines, inlines := comments.1, blocks := comments.2 }

-- There may be one document at most, and none is the empty definition.
def read? (t : Text) : Option Definition :=
  match Yaml.read? t with
  | some [] => some {}
  | some [n] => ofNode? n
  | _ => none

end LiveHighlight.Definition
