import LiveHighlight.Pattern.Template
import LiveHighlight.Rules.Finder

-- The structure of a document: titled items found by patterns.

namespace LiveHighlight.Rules

structure OutlineItem where
  title : Text
  span : Span
  kind : Option OutlineKind
  deriving DecidableEq

def OutlineItem.le (a b : OutlineItem) : Bool :=
  a.span.start < b.span.start || (a.span.start == b.span.start && a.span.stop ≤ b.span.stop)

structure Outline where
  pattern : Pattern
  template : Text
  kind : Option OutlineKind

namespace Outline

def ofRule (r : OutlineRule) : Except RuleError Outline :=
  (readPattern r.beginString r.ignoreCase false).map fun p => ⟨p, r.keyString, r.kind⟩

-- A carriage return at the very end of the text before an item counts as a terminator.
def lineNumber : Text → Nat
  | [] => 1
  | c :: rest =>
    if c == '\n' || (c == '\r' && rest.head? != some '\n') then lineNumber rest + 1
    else lineNumber rest

def withLineNumber (digits : Text) : Text → Text
  | '$' :: 'L' :: 'N' :: rest => digits ++ withLineNumber digits rest
  | c :: rest => c :: withLineNumber digits rest
  | [] => []

def onOneLine (t : Text) : Text := t.map fun c => if Text.isTerminator c then ' ' else c

-- The template of a separator is its title as it stands. An empty one asks for the matched text;
-- in any other the line number goes in before groups are looked up.
def title (o : Outline) (m : Pattern.Match) : Text :=
  if o.kind = some .separator then o.template
  else if o.template.isEmpty then m.textOf m.span
  else
    let digits := Text.decimal (lineNumber m.start.before.reverse)
    Pattern.expand o.pattern m (withLineNumber digits o.template)

def items (o : Outline) (t : Text) : List OutlineItem :=
  ((o.pattern.allMatches t).filter fun m => !m.isEmpty).map fun m =>
    ⟨onOneLine (o.title m), m.span, o.kind⟩

end Outline

end LiveHighlight.Rules
