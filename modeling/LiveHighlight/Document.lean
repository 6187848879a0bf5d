import LiveHighlight.Edit

-- The editor's text as this side knows it, with its line index. An accepted edit splices the
-- text and patches the index around the splice; a refused one changes nothing.

namespace LiveHighlight

structure Document where
  text : Text
  lines : LineIndex
  deriving DecidableEq

namespace Document

def ofText (t : Text) : Document := ⟨t, .ofText t⟩

def empty : Document := .ofText []

def size (d : Document) : Nat := Text.size d.text

-- Nothing if the notification contradicts itself or does not fit this text.
def locate? (d : Document) (e : Edit) : Option (Span × Text × Text × Text) :=
  if Text.size e.inserted = e.edited.length then
    match e.replaced? with
    | none => none
    | some replaced => (Text.split? d.text replaced).map fun parts => (replaced, parts)
  else none

-- Away from the two seams line starts only go, move or come in; the seams are decided again.
def patchedLines (lines : LineIndex) (replaced : Span) (newStop : Nat) (delta : Int)
    (left inserted right : Text) : LineIndex :=
  let kept := lines.starts.filter fun s => !(replaced.start < s && s ≤ replaced.stop)
  let moved := LineIndex.shiftFrom replaced.stop delta kept
  let own := (LineIndex.startsBehind replaced.start inserted).filter (· < newStop)
  let spliced := own.foldl (fun starts s => LineIndex.enter s starts) moved
  let first := LineIndex.startsBetween left.getLast? (inserted.head?.or right.head?)
  let last := LineIndex.startsBetween (inserted.getLast?.or left.getLast?) right.head?
  ⟨LineIndex.enter 0
    (LineIndex.settle newStop last (LineIndex.settle replaced.start first spliced))⟩

def edit (d : Document) (e : Edit) : Except Refusal (Document × Splice) :=
  match d.locate? e with
  | none => .error (.invalidRange e.edited e.delta (Text.size e.inserted) d.size)
  | some (replaced, left, _, right) =>
    match d.lines.point? replaced.start with
    | none => .error (.noLineStart replaced.start)
    | some startPoint =>
      match d.lines.point? replaced.stop with
      | none => .error (.noLineStart replaced.stop)
      | some oldStopPoint =>
        let newStop := e.edited.stop
        let lines := patchedLines d.lines replaced newStop e.delta left e.inserted right
        match lines.point? newStop with
        | none => .error (.noLineStart newStop)
        | some newStopPoint =>
          .ok (⟨left ++ e.inserted ++ right, lines⟩,
            { start := replaced.start
              oldStop := replaced.stop
              newStop := newStop
              startPoint := startPoint
              oldStopPoint := oldStopPoint
              newStopPoint := newStopPoint })

end Document

end LiveHighlight
