import LiveHighlight.Affected
import LiveHighlight.Layer

-- One document under edit: its text, the layer that reads it, and what still has to be
-- looked at. Every operation ends with all three in agreement.

namespace LiveHighlight

structure Config where
  resolveEmbedded : Bool := true
  workerName : String := "editor-syntax"
  deriving DecidableEq

inductive Intake where
  | unchanged
  | incremental
  | reloaded
  deriving DecidableEq

-- At which of its two checks a pass finds itself cancelled.
inductive Cancellation where
  | never
  | beforeRefresh
  | afterRefresh
  deriving DecidableEq

-- The outcome of a finished pass: the highlights, and the span whose rendering they replace.
structure Pass where
  highlights : List Highlight
  updated : Span
  deriving DecidableEq

structure Session (σ : Type) where
  layer : σ
  document : Document
  affected : Affected
  config : Config
  lastIntake : Intake

namespace Session

variable {σ : Type} [Layer σ]

def start (layer : σ) (t : Text) (config : Config) : Session σ :=
  { layer := Layer.load layer t
    document := .ofText t
    affected := .none
    config := config
    lastIntake := .unchanged }

def text (s : Session σ) : Text := s.document.text

-- Drops everything derived and reads the given text as a whole.
def reload (s : Session σ) (t : Text) : Session σ :=
  { s with
    layer := Layer.load s.layer t
    document := .ofText t
    affected := .only ⟨0, Text.size t⟩
    lastIntake := .reloaded }

def edit (s : Session σ) (e : Edit) : Except Refusal (Session σ) :=
  match s.document.edit e with
  | .error refusal => .error refusal
  | .ok (document, splice) =>
    .ok { s with
      layer := Layer.edit s.layer splice
      document := document
      affected := s.affected.add e.edited e.delta
      lastIntake := .incremental }

-- If the edit is refused or leads elsewhere, the text decides.
def follow (s : Session σ) (e : Edit) (t : Text) : Session σ :=
  if s.text = t then { s with lastIntake := .unchanged }
  else
    match s.edit e with
    | .ok next => if next.text = t then next else next.reload t
    | .error _ => s.reload t

def overwrite (s : Session σ) (t : Text) : Session σ :=
  if s.text = t then { s with lastIntake := .unchanged }
  else
    match s.edit (.replace ⟨0, s.document.size⟩ t) with
    | .ok next => next
    | .error _ => s.reload t

-- All of the text becomes affected. The layer taken out is handed back.
def exchange (s : Session σ) (layer : σ) : Session σ × σ :=
  ({ s with
      layer := Layer.load layer s.text
      affected := .only ⟨0, s.document.size⟩ }, s.layer)

def catchUp (s : Session σ) (t : Text) : Session σ := if s.text = t then s else s.reload t

-- Lets the layer read what is affected. Nothing is asked of it when nothing is.
def refresh (s : Session σ) : Session σ × SpanSet :=
  if s.affected.isEmpty then (s, .empty)
  else
    let (layer, invalidated) :=
      Layer.refresh s.layer s.text s.affected.spans s.config.resolveEmbedded
    ({ s with layer := layer }, invalidated)

-- What has to be rendered again: the wanted span and all that was invalidated, within the text.
def updatedSpan (s : Session σ) (invalidated : SpanSet) (wanted : Span) : Span :=
  let requested := wanted.clamp s.document.size
  match invalidated.hull? with
  | some hull => (hull.hull requested).clamp s.document.size
  | none => requested

-- One highlight pass. A cancelled pass answers nothing and leaves what is affected in place.
def pass (s : Session σ) (t : Text) (wanted : Span) (cancelled : Cancellation) :
    Session σ × Option Pass :=
  let current := s.catchUp t
  match cancelled with
  | .beforeRefresh => (current, none)
  | .afterRefresh => (current.refresh.1, none)
  | .never =>
    let (parsed, invalidated) := current.refresh
    let finished := { parsed with affected := Affected.none }
    let updated := finished.updatedSpan invalidated wanted
    let captures := Layer.captures finished.layer updated finished.text
    (finished, some ⟨Highlight.ofCaptures captures (Layer.category? finished.layer), updated⟩)

end Session

end LiveHighlight
