import LiveHighlight.Session

-- A session behind a queue. Commands of any number of senders run one after another in the
-- order in which they were queued.

namespace LiveHighlight

inductive Command (σ : Type) where
  | follow (edit : Edit) (text : Text)
  | edit (edit : Edit)
  | overwrite (text : Text)
  | exchange (layer : σ)
  -- The asker may have gone away by the first check of the pass, or by the second.
  | pass (text : Text) (wanted : Span) (cancelled : Cancellation)
  | snapshot

structure Snapshot where
  text : Text
  lineStarts : List Nat
  affected : SpanSet
  lastIntake : Intake
  deriving DecidableEq

inductive Reply where
  | pass (result : Option Pass)
  | snapshot (taken : Snapshot)
  deriving DecidableEq

namespace Queue

variable {σ : Type} [Layer σ]

def snapshot (s : Session σ) : Snapshot :=
  ⟨s.text, s.document.lines.starts, s.affected.spans, s.lastIntake⟩

-- Runs one command. Only requests are replied to; an edit that is refused is dropped.
def step (s : Session σ) : Command σ → Session σ × Option Reply
  | .follow e t => (s.follow e t, none)
  | .edit e =>
    match s.edit e with
    | .ok next => (next, none)
    | .error _ => (s, none)
  | .overwrite t => (s.overwrite t, none)
  | .exchange layer => ((s.exchange layer).1, none)
  | .pass t wanted cancelled =>
    let (next, result) := s.pass t wanted cancelled
    (next, some (.pass result))
  | .snapshot => (s, some (.snapshot (snapshot s)))

def drain (s : Session σ) : List (Command σ) → Session σ × List (Option Reply)
  | [] => (s, [])
  | command :: rest =>
    let (next, reply) := step s command
    let (final, replies) := drain next rest
    (final, reply :: replies)

end Queue

end LiveHighlight
