import LiveHighlight.Edit

-- What a layer asks of the library that parses for it. Languages are compiled from sources; a
-- language reads texts into trees, and its queries find matches in them.

namespace LiveHighlight.Nesting

structure Binding where
  name : String
  span : Span
  deriving DecidableEq

-- One way in which a pattern fits, with what is set for all matches of the pattern.
structure Match where
  bindings : List Binding
  settings : List (String × String)

inductive LanguageError where
  | unknown (name : String)
  | query
  deriving DecidableEq

-- A broken query is only answered by its kind.
def LanguageError.message? : LanguageError → Option String
  | .unknown n => some ("unknown tree-sitter language: " ++ n)
  | .query => none

class Compiling (S : Type) (L : outParam Type) where
  sourceName : S → String
  compile : S → Except LanguageError L

class Parsing (L : Type) (T : outParam Type) where
  name : L → String
  -- Reads a text, or some pieces of it as one document. A tree that was read before and has gone
  -- along with every edit since may be reused.
  read : L → Option T → Text → Option (List Span) → Option T
  -- Takes a tree along with an edit of its text.
  edit : L → T → Splice → T
  -- Where the structure of two trees over one text differs.
  changes : L → T → T → List Span
  -- Matches of the query for highlights, as far as they reach into a span.
  marks : L → T → Text → Span → List Match
  -- Matches of the query for embedded regions. A language without that query has none.
  regions : L → T → Text → List Match

end LiveHighlight.Nesting
