import LiveHighlight.Json.QueryReader
import LiveHighlight.Json.Reader
import LiveHighlight.Nesting.Catalogue
import LiveHighlight.Unicode.Blank

-- Languages over JSON trees: a query for highlights and perhaps one for embedded regions.

namespace LiveHighlight.Embedding

open LiveHighlight.Json (Query Tree)

abbrev LanguageError := Nesting.LanguageError

structure LanguageSource where
  name : String
  highlights : Text
  injections : Option Text
  deriving DecidableEq

structure Language where
  name : String
  highlights : Query
  captureNames : List String
  injections : Option Query

-- A query of nothing but white space counts as absent.
def LanguageSource.injectionText? (s : LanguageSource) : Option Text :=
  s.injections.filter fun t => !(Unicode.trim t).isEmpty

namespace Language

def ofSource (s : LanguageSource) : Except LanguageError Language :=
  match Query.read? s.highlights with
  | none => .error .query
  | some highlights =>
    let names := Query.captureNames s.highlights
    match s.injectionText? with
    | none => .ok ⟨s.name, highlights, names, none⟩
    | some t =>
      match Query.read? t with
      | none => .error .query
      | some injections => .ok ⟨s.name, highlights, names, some injections⟩

def description (l : Language) : String :=
  "CompiledLanguage \x7b name: " ++ Nesting.quotedName l.name ++ ", injections: " ++
    (if l.injections.isSome then "true" else "false") ++ ", .. \x7d"

end Language

instance : Nesting.Compiling LanguageSource Language where
  sourceName s := s.name
  compile := Language.ofSource

-- Nothing of an earlier tree is reused.
instance : Nesting.Parsing Language Tree where
  name l := l.name
  read _ _ t pieces :=
    match pieces with
    | none => Json.readWhole? t
    | some spans => Json.read? t spans
  edit _ tree d := tree.carry d.replacement
  changes _ old new := old.changes new
  marks l tree _ wanted := Query.matchesWithin l.highlights tree wanted
  regions l tree _ :=
    match l.injections with
    | none => []
    | some q => (Query.allMatches q tree).map (·.2)

end LiveHighlight.Embedding
