import LiveHighlight.Text

-- The description of a language by rules, as its author writes it.

namespace LiveHighlight

inductive DefinitionKind where
  | general
  | code
  deriving DecidableEq

def DefinitionKind.all : List DefinitionKind := [.general, .code]

def DefinitionKind.name : DefinitionKind → String
  | .general => "general"
  | .code => "code"

structure HighlightRule where
  beginString : Text := []
  endString : Option Text := none
  isPattern : Bool := false
  ignoreCase : Bool := false
  isMultiline : Bool := false
  description : Option Text := none
  deriving DecidableEq

namespace HighlightRule

def word (t : Text) : HighlightRule := { beginString := t }

def pattern (t : Text) : HighlightRule := { beginString := t, isPattern := true }

-- A plain rule with no end at all is a word.
def isWord (r : HighlightRule) : Bool := !r.isPattern && r.endString.isNone

def end? (r : HighlightRule) : Option Text := r.endString.filter fun t => !t.isEmpty

end HighlightRule

inductive OutlineKind where
  | container | function | value | heading | mark | reference | separator
  deriving DecidableEq

namespace OutlineKind

def all : List OutlineKind :=
  [.container, .function, .value, .heading, .mark, .reference, .separator]

def name : OutlineKind → String
  | .container => "container"
  | .function => "function"
  | .value => "value"
  | .heading => "heading"
  | .mark => "mark"
  | .reference => "reference"
  | .separator => "separator"

end OutlineKind

structure OutlineRule where
  beginString : Text := []
  keyString : Text := []
  ignoreCase : Bool := false
  kind : Option OutlineKind := none
  description : Option Text := none
  deriving DecidableEq

structure InlineComment where
  opening : Text
  -- Only where a line starts, blanks aside.
  leadingOnly : Bool := false
  deriving DecidableEq

structure BlockComment where
  opening : Text
  closing : Text
  deriving DecidableEq

structure Definition where
  kind : DefinitionKind := .general
  -- Rules by category name, in increasing order of the names, each name once.
  highlights : List (String × List HighlightRule) := []
  outlines : List OutlineRule := []
  inlines : List InlineComment := []
  blocks : List BlockComment := []
  deriving DecidableEq

namespace Definition

-- Enters the rules of a category. Rules entered before under the same name go.
def enter (name : String) (rules : List HighlightRule) :
    List (String × List HighlightRule) → List (String × List HighlightRule)
  | [] => [(name, rules)]
  | (n, old) :: rest =>
    if name = n then (n, rules) :: rest
    else if name < n then (name, rules) :: (n, old) :: rest
    else (n, old) :: enter name rules rest

def ofCategories (l : List (String × List HighlightRule)) : List (String × List HighlightRule) :=
  l.foldl (fun entered c => enter c.1 c.2 entered) []

def isEmpty (d : Definition) : Bool :=
  d.highlights.all (fun c => c.2.isEmpty) && d.outlines.isEmpty && d.inlines.isEmpty &&
    d.blocks.isEmpty

end Definition

end LiveHighlight
