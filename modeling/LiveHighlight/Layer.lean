import LiveHighlight.Document
import LiveHighlight.Highlight
import LiveHighlight.SpanSet

-- The parsing capability that a session drives: a value that keeps whatever it derives from the
-- text and answers with captures.

namespace LiveHighlight

class Layer (σ : Type) where
  -- Adjusts what is kept for an edit already made to the text.
  edit : σ → Splice → σ
  -- Catches up with the text and names every span whose derived structure may have changed. The
  -- flag asks for embedded languages to be looked up again.
  refresh : σ → Text → SpanSet → Bool → σ × SpanSet
  -- Named captures that overlap a span.
  captures : σ → Span → Text → List Capture
  -- Drops everything kept and reads the text from the start.
  load : σ → Text → σ
  category? : σ → String → Option Category

end LiveHighlight
