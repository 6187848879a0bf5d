-- The closed set of meanings a highlight can carry.

namespace LiveHighlight

inductive Category where
  | keywords | commands | types | attributes | variables
  | values | numbers | strings | characters | comments
  deriving DecidableEq

namespace Category

def all : List Category :=
  [.keywords, .commands, .types, .attributes, .variables,
    .values, .numbers, .strings, .characters, .comments]

-- The plural is the canonical name.
def name : Category → String
  | .keywords => "keywords"
  | .commands => "commands"
  | .types => "types"
  | .attributes => "attributes"
  | .variables => "variables"
  | .values => "values"
  | .numbers => "numbers"
  | .strings => "strings"
  | .characters => "characters"
  | .comments => "comments"

-- Queries commonly write the singular.
def singular : Category → String
  | .keywords => "keyword"
  | .commands => "command"
  | .types => "type"
  | .attributes => "attribute"
  | .variables => "variable"
  | .values => "value"
  | .numbers => "number"
  | .strings => "string"
  | .characters => "character"
  | .comments => "comment"

def ofName? (n : String) : Option Category :=
  all.find? fun c => c.name == n || c.singular == n

def firstComponent (captureName : String) : String :=
  String.ofList (captureName.toList.takeWhile (· ≠ '.'))

def ofCaptureName? (captureName : String) : Option Category :=
  ofName? (firstComponent captureName)

end Category

def unknownCategoryMessage (n : String) : String := "unknown syntax category: " ++ n

end LiveHighlight
