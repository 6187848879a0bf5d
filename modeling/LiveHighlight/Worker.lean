import LiveHighlight.Queue

-- The worker behind a queue, step by step. A list of events tells every way in which requests, the
-- leaving of askers and the worker's steps come between each other.

namespace LiveHighlight

inductive Request (σ : Type) where
  | follow (edit : Edit) (text : Text)
  | edit (edit : Edit)
  | overwrite (text : Text)
  | exchange (layer : σ)
  | highlights (text : Text) (wanted : Span)
  | snapshot

-- The command that a request comes to. Only highlights can be cancelled.
def Request.command {σ : Type} (cancelled : Cancellation) : Request σ → Command σ
  | .follow e t => .follow e t
  | .edit e => .edit e
  | .overwrite t => .overwrite t
  | .exchange layer => .exchange layer
  | .highlights t wanted => .pass t wanted cancelled
  | .snapshot => .snapshot

inductive Event (σ : Type) where
  | send (request : Request σ)
  -- Whoever waits for the answer to a request stops waiting.
  | leave (ticket : Nat)
  -- The worker goes on to its next check, or to the end of a command that has none.
  | work

-- A request for highlights waits for its first check or for its second.
inductive Phase where
  | idle
  | current (ticket : Nat) (wanted : Span)
  | refreshed (ticket : Nat) (wanted : Span) (invalidated : SpanSet)
  deriving DecidableEq

-- Requests are numbered as they are queued. Answers are kept in the order in which they are given.
structure Worker (σ : Type) where
  session : Session σ
  queue : List (Request σ × Nat)
  phase : Phase
  sent : Nat
  gone : List Nat
  answers : List (Nat × Reply)

namespace Worker

variable {σ : Type} [Layer σ]

def spawn (layer : σ) (t : Text) (config : Config) : Worker σ :=
  ⟨.start layer t config, [], .idle, 0, [], []⟩

-- The last part of a pass, behind its second check.
def finish (s : Session σ) (wanted : Span) (invalidated : SpanSet) : Session σ × Pass :=
  let finished := { s with affected := Affected.none }
  let updated := finished.updatedSpan invalidated wanted
  let captures := Layer.captures finished.layer updated finished.text
  (finished, ⟨Highlight.ofCaptures captures (Layer.category? finished.layer), updated⟩)

def take (w : Worker σ) : Worker σ :=
  match w.queue with
  | [] => w
  | (.highlights t wanted, ticket) :: rest =>
    { w with
      session := w.session.catchUp t
      queue := rest
      phase := .current ticket wanted }
  | (request, ticket) :: rest =>
    let (next, reply) := Queue.step w.session (request.command .never)
    { w with
      session := next
      queue := rest
      answers := w.answers ++ (reply.map (ticket, ·)).toList }

-- The answer to a request for highlights, after which the next request can be taken.
def answer (w : Worker σ) (ticket : Nat) (result : Option Pass) : Worker σ :=
  { w with
    phase := .idle
    answers := w.answers ++ [(ticket, .pass result)] }

def work (w : Worker σ) : Worker σ :=
  match w.phase with
  | .idle => w.take
  | .current ticket wanted =>
    if ticket ∈ w.gone then w.answer ticket none
    else
      let (next, invalidated) := w.session.refresh
      { w with
        session := next
        phase := .refreshed ticket wanted invalidated }
  | .refreshed ticket wanted invalidated =>
    if ticket ∈ w.gone then w.answer ticket none
    else
      let (next, result) := finish w.session wanted invalidated
      { w with session := next }.answer ticket (some result)

def happen (w : Worker σ) : Event σ → Worker σ
  | .send request =>
    { w with
      queue := w.queue ++ [(request, w.sent)]
      sent := w.sent + 1 }
  | .leave ticket => { w with gone := ticket :: w.gone }
  | .work => w.work

def run (w : Worker σ) (events : List (Event σ)) : Worker σ := events.foldl happen w

end Worker

end LiveHighlight
