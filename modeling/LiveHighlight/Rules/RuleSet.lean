import LiveHighlight.Highlight
import LiveHighlight.Rules.Outline
import LiveHighlight.Rules.Sweep

-- A definition made ready for search. Each highlight rule goes to the sweep, to the word lists
-- of its category, or is searched for alone.

namespace LiveHighlight.Rules

structure RuleSet where
  kind : DefinitionKind
  finders : List (Category × Finder)
  delimiters : Delimiters
  outlines : List Outline
  spansLines : Bool

namespace RuleSet

def empty : RuleSet := ⟨.general, [], [], [], false⟩

structure Sorted where
  delimiters : Delimiters
  words : List Text
  caselessWords : List Text
  finders : List Finder

-- The first rule to claim a pair of delimiters keeps it; a later one is searched for alone.
def sortRule (k : Category) (s : Sorted) (r : HighlightRule) : Except RuleError Sorted :=
  match (Delimiter.ofRule? r).bind fun d => s.delimiters.declare? d k with
  | some delimiters => .ok { s with delimiters := delimiters }
  | none =>
    if r.isWord then
      if r.ignoreCase then .ok { s with caselessWords := s.caselessWords ++ [r.beginString] }
      else .ok { s with words := s.words ++ [r.beginString] }
    else
      match Finder.ofRule? r with
      | .error e => .error e
      | .ok none => .ok s
      | .ok (some e) => .ok { s with finders := s.finders ++ [e] }

def sortRules (k : Category) (s : Sorted) : List HighlightRule → Except RuleError Sorted
  | [] => .ok s
  | r :: rest =>
    match sortRule k s r with
    | .error e => .error e
    | .ok next => sortRules k next rest

def Sorted.all (s : Sorted) : List Finder :=
  s.finders ++ (Finder.ofWords? s.words false).toList ++
    (Finder.ofWords? s.caselessWords true).toList

def sortCategories (delimiters : Delimiters) (finders : List (Category × Finder)) :
    List (String × List HighlightRule) →
      Except RuleError (Delimiters × List (Category × Finder))
  | [] => .ok (delimiters, finders)
  | (name, rules) :: rest =>
    match Category.ofName? name with
    | none => .error (.unknownCategory name)
    | some k =>
      match sortRules k ⟨delimiters, [], [], []⟩ rules with
      | .error e => .error e
      | .ok s => sortCategories s.delimiters (finders ++ s.all.map (k, ·)) rest

-- Comments take their delimiters from any category: blocks first, then inline ones.
def withComments (l : Delimiters) (d : Definition) : Delimiters :=
  (d.blocks.filterMap Delimiter.ofBlock? ++ d.inlines.filterMap Delimiter.ofInline?).foldl
    (fun l c => Delimiters.override c .comments l) l

def readOutlines : List OutlineRule → Except RuleError (List Outline)
  | [] => .ok []
  | r :: rest =>
    if r.beginString.isEmpty then readOutlines rest
    else
      match Outline.ofRule r with
      | .error e => .error e
      | .ok o => (readOutlines rest).map (o :: ·)

def ofDefinition (d : Definition) : Except RuleError RuleSet :=
  match sortCategories [] [] d.highlights with
  | .error e => .error e
  | .ok (declared, finders) =>
    let delimiters := withComments declared d
    (readOutlines d.outlines).map fun outlines =>
      { kind := d.kind
        finders := finders
        delimiters := delimiters
        outlines := outlines
        spansLines := finders.any (fun e => e.2.spansLines) || delimiters.spansLines }

def isEmpty (r : RuleSet) : Bool := r.finders.isEmpty && r.delimiters.isEmpty

-- The whole text has to be searched if some rule may cross lines.
def scanSpan (r : RuleSet) (t : Text) (wanted : Span) : Span :=
  if r.spansLines then ⟨0, Text.size t⟩ else lineBounds t wanted

-- Everything found in a stretch of text: rule by rule, then the regions of the sweep.
def found (r : RuleSet) (w : Window) : List (Category × Span) :=
  (r.finders.flatMap fun e => (e.2.spans w).map (e.1, ·)) ++ r.delimiters.regions w

-- Nothing if the span to be searched does not fall between characters.
def captures? (r : RuleSet) (t : Text) (wanted : Span) : Option (List Capture) :=
  (Window.of? t (r.scanSpan t wanted)).map fun w =>
    ((r.found w).filter fun f => f.2.overlaps wanted).map fun f => ⟨f.1.name, f.2⟩

def outline (r : RuleSet) (t : Text) : List OutlineItem :=
  Order.sort OutlineItem.le (r.outlines.flatMap fun o => o.items t)

end RuleSet

end LiveHighlight.Rules
