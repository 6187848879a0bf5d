import LiveHighlight.Layer

-- A layer that keeps a record of what it was told, beside the layer that does the work.

namespace LiveHighlight

inductive LayerCall where
  | load (text : Text)
  | edit (splice : Splice)
  | refresh (text : Text) (affecting : SpanSet) (resolve : Bool) (returned : SpanSet)
  deriving DecidableEq

-- Calls are kept in the order in which they came.
structure Recorded (σ : Type) where
  layer : σ
  calls : List LayerCall

namespace Recorded

variable {σ : Type}

def fresh (layer : σ) : Recorded σ := ⟨layer, []⟩

instance [Layer σ] : Layer (Recorded σ) where
  edit r d := ⟨Layer.edit r.layer d, r.calls ++ [.edit d]⟩
  refresh r t affecting resolve :=
    let (layer, returned) := Layer.refresh r.layer t affecting resolve
    (⟨layer, r.calls ++ [.refresh t affecting resolve returned]⟩, returned)
  captures r wanted t := Layer.captures r.layer wanted t
  load r t := ⟨Layer.load r.layer t, r.calls ++ [.load t]⟩
  category? r name := Layer.category? r.layer name

end Recorded

end LiveHighlight
