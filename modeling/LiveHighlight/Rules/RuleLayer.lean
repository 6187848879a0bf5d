import LiveHighlight.Layer
import LiveHighlight.Rules.RuleSet

-- A layer that keeps nothing of the text: each pass searches what it is asked about.

namespace LiveHighlight.Rules

structure RuleLayer where
  rules : RuleSet

namespace RuleLayer

-- An edit invalidates the lines it touched, and all that follows if some rule may cross lines.
def widened (l : RuleLayer) (t : Text) (s : Span) : Span :=
  let lines := lineBounds t s
  if l.rules.spansLines then ⟨lines.start, Text.size t⟩ else lines

instance : Layer RuleLayer where
  edit l _ := l
  refresh l t affecting _ := (l, .ofList (affecting.spans.map (l.widened t)))
  captures l wanted t := (l.rules.captures? t wanted).getD []
  load l _ := l
  category? _ name := Category.ofCaptureName? name

end RuleLayer

end LiveHighlight.Rules
