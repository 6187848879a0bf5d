import LiveHighlight.Category
import LiveHighlight.Order
import LiveHighlight.Span

-- From raw captures to sorted highlights.

namespace LiveHighlight

structure Capture where
  name : String
  span : Span
  deriving DecidableEq

structure Highlight where
  category : Category
  span : Span
  deriving DecidableEq

namespace Highlight

def le (a b : Highlight) : Bool :=
  a.span.start < b.span.start ||
    (a.span.start == b.span.start && a.span.length ≤ b.span.length)

-- Empty captures and names without a category drop out; what is left is sorted stably, and
-- overlapping spans all stay.
def ofCaptures (captures : List Capture) (category? : String → Option Category) :
    List Highlight :=
  let mapped := captures.filterMap fun c =>
    if c.span.isEmpty then none else (category? c.name).map fun k => ⟨k, c.span⟩
  Order.sort le mapped

end Highlight

end LiveHighlight
