import LiveHighlight.Nesting.Parsing
import LiveHighlight.Text.Quoted

-- Languages by name. One is compiled when it is first asked for and kept from then on; one that
-- does not compile stays as it was entered, and asking again fails again.

namespace LiveHighlight.Nesting

inductive Entry (S L : Type) where
  | pending (source : S)
  | ready (language : L)

-- Entries in increasing order of their names, each name once.
structure Catalogue (S L : Type) where
  entries : List (String × Entry S L)

def quotedName (n : String) : String := String.ofList (Text.quoted n.toList)

namespace Catalogue

variable {S L : Type}

def empty : Catalogue S L := ⟨[]⟩

def put (name : String) (e : Entry S L) : List (String × Entry S L) → List (String × Entry S L)
  | [] => [(name, e)]
  | (n, old) :: rest =>
    if name = n then (n, e) :: rest
    else if name < n then (name, e) :: (n, old) :: rest
    else (n, old) :: put name e rest

-- The name need not be its own. An earlier entry of that name goes.
def enterAs (r : Catalogue S L) (name : String) (s : S) : Catalogue S L :=
  ⟨put name (.pending s) r.entries⟩

def names (r : Catalogue S L) : List String := r.entries.map (·.1)

def entry? (r : Catalogue S L) (name : String) : Option (Entry S L) :=
  (r.entries.find? fun e => e.1 == name).map (·.2)

def contains (r : Catalogue S L) (name : String) : Bool := (r.entry? name).isSome

def description (r : Catalogue S L) : String :=
  "LanguageRegistry \x7b names: [" ++ ", ".intercalate (r.names.map quotedName) ++ "] \x7d"

-- What a look-up gives, the catalogue after it, and whether the language had to be loaded.
structure Lookup (S L : Type) where
  result : Except LanguageError L
  catalogue : Catalogue S L
  loaded : Bool

variable [Compiling S L]

def enter (r : Catalogue S L) (s : S) : Catalogue S L := r.enterAs (Compiling.sourceName s) s

def lookup (r : Catalogue S L) (name : String) : Lookup S L :=
  match r.entry? name with
  | none => ⟨.error (.unknown name), r, false⟩
  | some (.ready l) => ⟨.ok l, r, false⟩
  | some (.pending s) =>
    match Compiling.compile s with
    | .error e => ⟨.error e, r, true⟩
    | .ok l => ⟨.ok l, ⟨put name (.ready l) r.entries⟩, true⟩

def language (r : Catalogue S L) (name : String) : Except LanguageError L :=
  (r.lookup name).result

end Catalogue

end LiveHighlight.Nesting
