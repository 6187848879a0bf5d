import LiveHighlight.Layer
import LiveHighlight.Nesting.Catalogue
import LiveHighlight.Unicode.Blank

-- A layer that reads the text as a tree of its root language, and regions of that tree as trees
-- of further languages, down to a limit of nesting.

namespace LiveHighlight.Nesting

-- A region to be read in a language, as the pieces of text it is made of.
structure Injection where
  language : String
  pieces : List Span
  deriving DecidableEq

namespace Injection

def span (i : Injection) : Span :=
  let start := (i.pieces.head?.map (·.start)).getD 0
  ⟨start, (i.pieces.getLast?.map (·.stop)).getD start⟩

-- Pieces can be read as one document only if each ends before the next begins.
def inOrder : List Span → Bool
  | [] => true
  | [s] => s.start ≤ s.stop
  | s :: next :: rest => s.start ≤ s.stop && s.stop ≤ next.start && inOrder (next :: rest)

def arrange (pieces : List Span) : List Span :=
  (Order.sort (fun a b => a.start ≤ b.start) pieces).foldr (fun s kept =>
    match kept with
    | next :: rest => if s.start = next.start then s :: rest else s :: next :: rest
    | [] => [s]) []

-- The language that a match names in the text comes before the one that its pattern sets.
def languageOf (t : Text) (m : Match) : Option String :=
  let named := (m.bindings.filter fun b => b.name == "injection.language").filterMap fun b =>
    (Text.split? t b.span).map fun parts => String.ofList (Unicode.trim parts.2.1)
  named.getLast?.or ((m.settings.find? fun s => s.1 == "injection.language").map (·.2))

-- A match without a language or without content says nothing.
def ofMatch (t : Text) (m : Match) : Option Injection :=
  let content := (m.bindings.filter fun b => b.name == "injection.content").map (·.span)
  match languageOf t m with
  | none => none
  | some language => if content.isEmpty then none else some ⟨language, arrange content⟩

end Injection

structure Sublayer (L T : Type) where
  depth : Nat
  span : Span
  language : L
  tree : Option T

def addAll (s : SpanSet) (l : List Span) : SpanSet := l.foldl SpanSet.insert s

-- Takes the first member of a kind out. The last one moves into its place.
def takeOut {α : Type} (isMeant : α → Bool) (l : List α) : List α :=
  match l.findIdx? isMeant, l.getLast? with
  | some i, some last => (l.set i last).dropLast
  | _, _ => l

variable {S L T : Type} [Compiling S L] [Parsing L T]

def injections (l : L) (tree : Option T) (t : Text) : List Injection :=
  match tree with
  | none => []
  | some root => (Parsing.regions l root t).filterMap (Injection.ofMatch t)

-- Where two readings of a text differ; without an earlier one, everywhere.
def changed (l : L) (old new : Option T) (t : Text) : List Span :=
  match old, new with
  | some a, some b => Parsing.changes l a b
  | _, _ => [⟨0, Text.size t⟩]

-- The sublayers that may still be claimed, the new ones, and the spans invalidated so far.
structure Resolution (L T : Type) where
  previous : List (Sublayer L T)
  invalidated : SpanSet

namespace Resolution

def invalidate (r : Resolution L T) (s : Span) : Resolution L T :=
  { r with invalidated := r.invalidated.insert s }

-- A region in an unknown language, or in pieces that are out of order, gives no sublayer.
def place (catalogue : Catalogue S L) (t : Text) (depth : Nat) (r : Resolution L T)
    (i : Injection) : Option (Sublayer L T) × Resolution L T :=
  let isEarlier := fun s : Sublayer L T =>
    s.depth == depth && s.span == i.span && Parsing.name s.language == i.language
  match r.previous.find? isEarlier with
  | some s =>
    let rest := { r with previous := takeOut isEarlier r.previous }
    if Injection.inOrder i.pieces then
      let tree := Parsing.read s.language s.tree t (some i.pieces)
      (some { s with tree := tree },
        { rest with invalidated := addAll rest.invalidated (changed s.language s.tree tree t) })
    else (none, rest.invalidate i.span)
  | none =>
    match catalogue.language i.language with
    | .error _ => (none, r)
    | .ok l =>
      let marked := r.invalidate i.span
      if Injection.inOrder i.pieces then
        (some ⟨depth, i.span, l, Parsing.read l none t (some i.pieces)⟩, marked)
      else (none, marked)

def placeAll (catalogue : Catalogue S L) (t : Text) (depth : Nat) (r : Resolution L T) :
    List Injection → List (Sublayer L T) × Resolution L T
  | [] => ([], r)
  | i :: rest =>
    let (found, next) := place catalogue t depth r i
    let (more, final) := placeAll catalogue t depth next rest
    (found.toList ++ more, final)

-- Level by level: the regions of one depth, then those found in them, as long as depths are left.
def levels (catalogue : Catalogue S L) (t : Text) (left depth : Nat) (r : Resolution L T)
    (wanted : List Injection) : List (Sublayer L T) × Resolution L T :=
  match left with
  | 0 => ([], r)
  | left + 1 =>
    if wanted.isEmpty then ([], r)
    else
      let (found, next) := placeAll catalogue t depth r wanted
      let nested := found.flatMap fun s => injections s.language s.tree t
      let (deeper, final) := levels catalogue t left (depth + 1) next nested
      (found ++ deeper, final)

end Resolution

structure TreeLayer (S L T : Type) where
  catalogue : Catalogue S L
  language : L
  tree : Option T
  sublayers : List (Sublayer L T)
  -- Own categories for capture names; of two for one name the later counts.
  categories : List (String × Category)
  maxDepth : Nat

namespace TreeLayer

def defaultMaxDepth : Nat := 3

def make (catalogue : Catalogue S L) (name : String) (categories : List (String × Category))
    (maxDepth : Nat) : Except LanguageError (TreeLayer S L T) :=
  (catalogue.language name).map fun l => ⟨catalogue, l, none, [], categories, maxDepth⟩

def ofSource (s : S) (categories : List (String × Category)) (maxDepth : Nat) :
    Except LanguageError (TreeLayer S L T) :=
  make (Catalogue.empty.enter s) (Compiling.sourceName s) categories maxDepth

-- Reads the embedded regions of the present tree anew. Regions that are gone are invalidated.
def resolve (l : TreeLayer S L T) (t : Text) (invalidated : SpanSet) :
    TreeLayer S L T × SpanSet :=
  let (found, r) := Resolution.levels l.catalogue t l.maxDepth 1 ⟨l.sublayers, invalidated⟩
    (injections l.language l.tree t)
  ({ l with sublayers := found }, addAll r.invalidated (r.previous.map (·.span)))

def load (l : TreeLayer S L T) (t : Text) : TreeLayer S L T :=
  ({ l with tree := Parsing.read l.language none t none, sublayers := [] }.resolve t .empty).1

def edit (l : TreeLayer S L T) (d : Splice) : TreeLayer S L T :=
  { l with
    tree := l.tree.map (Parsing.edit l.language · d)
    sublayers := l.sublayers.map fun s =>
      { s with span := d.replacement.carry s.span, tree := s.tree.map (Parsing.edit s.language · d) } }

def refresh (l : TreeLayer S L T) (t : Text) (affecting : SpanSet) (withEmbedded : Bool) :
    TreeLayer S L T × SpanSet :=
  let tree := Parsing.read l.language l.tree t none
  let invalidated := addAll affecting (changed l.language l.tree tree t)
  let read := { l with tree := tree }
  if withEmbedded then read.resolve t invalidated else (read, invalidated)

def capturesOf (l : L) (tree : Option T) (wanted : Span) (t : Text) : List Capture :=
  match tree with
  | none => []
  | some root =>
    ((Parsing.marks l root t wanted).flatMap (·.bindings)).filterMap fun b =>
      if b.span.isEmpty then none else some ⟨b.name, b.span⟩

-- Captures of the root, then those of each sublayer whose span meets the wanted one.
def captures (l : TreeLayer S L T) (wanted : Span) (t : Text) : List Capture :=
  capturesOf l.language l.tree wanted t ++
    (l.sublayers.filter fun s => s.span.touches wanted).flatMap fun s =>
      capturesOf s.language s.tree wanted t

-- The whole capture name is looked up before its first component, and the usual meaning last.
def category? (l : TreeLayer S L T) (name : String) : Option Category :=
  let own := fun n => (l.categories.reverse.find? fun p => p.1 == n).map (·.2)
  ((own name).or (own (Category.firstComponent name))).or (Category.ofCaptureName? name)

instance : Layer (TreeLayer S L T) where
  edit := edit
  refresh := refresh
  captures := captures
  load := load
  category? := category?

end TreeLayer

end LiveHighlight.Nesting
