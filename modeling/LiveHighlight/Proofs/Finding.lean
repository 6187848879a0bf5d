import LiveHighlight.Proofs.Strides
import LiveHighlight.Proofs.Surroundings

-- What a rule finds in a stretch of text, in other surroundings. A pattern that takes no line
-- terminator does not get out of a stretch that ends with one.

namespace LiveHighlight

def Pattern.CharSet.inLine (s : CharSet) : Bool := !s.contains '\n' && !s.contains '\r'

def Pattern.inLine (p : Pattern) : Bool := p.node.each CharSet.inLine fun _ => true

theorem Pattern.CharSet.inLine_takes (s : CharSet) (kept : s.inLine = true) (x : Char)
    (taken : s.contains x = true) : Text.isTerminator x = false := by
  simp only [inLine, Bool.and_eq_true, Bool.not_eq_true'] at kept
  simp only [Text.isTerminator, Bool.or_eq_false_iff, beq_eq_false_iff_ne]
  constructor
  · intro same
    rw [same, kept.1] at taken
    cases taken
  · intro same
    rw [same, kept.2] at taken
    cases taken

namespace Pattern.Frame

variable {f : Frame} {p q : Pattern} {look : Look → Bool} {u z : Text} {c c' d d' : Cursor}
  {m m' : Match} {o o' : Option Match}

def Ended (f : Frame) : Prop := ∃ t x, f.text = t ++ [x] ∧ Text.isTerminator x = true

theorem ended_member {t : Text} {x : Char} (last : f.text = t ++ [x]) (whole : f.text = u ++ z)
    (held : z ≠ []) : x ∈ z := by
  have same := congrArg List.getLast? (whole.symm.trans last)
  rw [List.getLast?_append_of_ne_nil _ held] at same
  exact List.mem_of_getLast? (by simpa using same)

inductive Agrees (f : Frame) : Option Match → Option Match → Prop where
  | missed : Agrees f none none
  | met {u z : Text} {m m' : Match} (inside : f.Inside z) (stands : f.Stands u z m.stop m'.stop) :
      Agrees f (some m) (some m')
  | strayed {m : Match} {o : Option Match} (opened : ¬ f.Closed)
      (far : Text.size f.text + Text.size f.left ≤ m.stop.offset) : Agrees f (some m) o
  | strayed' {m : Match} {o : Option Match} (opened : ¬ f.Closed)
      (far : Text.size f.text + Text.size f.left' ≤ m.stop.offset) : Agrees f o (some m)

theorem matchAt?_agrees (edge : f.EdgeAgrees look)
    (only : p.node.each (fun _ => true) look = true) (inside : f.Inside z)
    (stands : f.Stands u z c c') : f.Agrees (p.matchAt? c) (p.matchAt? c') := by
  have alike := alike_run edge p.node only (P := fun _ _ _ => True)
    (fun _ _ _ _ _ _ _ _ _ => trivial) alike_finish
  have meets := alike.meets [] [] inside stands recalls_nil trivial
  unfold Pattern.matchAt?
  generalize p.node.run Step.finish c [] [] = o at meets
  generalize p.node.run Step.finish c' [] [] = o' at meets
  cases meets with
  | failed => exact .missed
  | ended inner there => exact .met inner there
  | strayed opened far => exact .strayed opened far
  | strayed' opened far => exact .strayed' opened far

-- A pattern that finds the same in the stretch whatever surrounds it.
structure Fits (f : Frame) (p : Pattern) : Prop where
  looks : ∃ look, p.node.each (fun _ => true) look = true ∧ f.EdgeAgrees look
  steady : f.Closed ∨ (p.inLine = true ∧ f.Ended)

theorem stays {left right : Text} (ended : f.Ended) (kept : p.inLine = true)
    (whole : f.text = u ++ z) (held : z ≠ []) (before : c.before = u.reverse ++ left)
    (rest : c.rest = z ++ right) (found : p.matchAt? c = some m) :
    m.stop.offset < Text.size f.text + Text.size left := by
  obtain ⟨t, x, last, ends⟩ := ended
  obtain ⟨v, taken, parts, front⟩ := Pattern.matchAt?_leads CharSet.inLine_takes kept found
  have offset : m.stop.offset = Text.size v + (Text.size u + Text.size left) := by
    rw [m.stop.offset_eq, front, before]
    simp only [Text.size_append, Text.size_reverse]
  have sizes := congrArg Text.size whole
  rw [Text.size_append] at sizes
  by_contra far
  rw [rest] at parts
  obtain ⟨between, longer, -⟩ := Text.halves_of_le parts (by omega)
  have member := ended_member last whole held
  have within : Text.isTerminator x = false := taken x (by simp [longer, member])
  rw [ends] at within
  cases within

theorem fits_matchAt? (fits : f.Fits p) (inside : f.Inside z) (stands : f.Stands u z c c') :
    (p.matchAt? c = none ∧ p.matchAt? c' = none) ∨
      ∃ m m' v w, p.matchAt? c = some m ∧ p.matchAt? c' = some m' ∧ f.Inside w ∧
        f.Stands v w m.stop m'.stop := by
  obtain ⟨look, only, edge⟩ := fits.looks
  have agrees := matchAt?_agrees edge only inside stands
  generalize here : p.matchAt? c = o at agrees
  generalize here' : p.matchAt? c' = o' at agrees
  cases agrees with
  | missed => exact .inl ⟨rfl, rfl⟩
  | met inner there => exact .inr ⟨_, _, _, _, rfl, rfl, inner, there⟩
  | strayed opened far =>
    obtain ⟨kept, ended⟩ := fits.steady.resolve_left opened
    have near := stays ended kept stands.whole (inside.resolve_right opened) stands.before
      stands.rest here
    omega
  | strayed' opened far =>
    obtain ⟨kept, ended⟩ := fits.steady.resolve_left opened
    have near := stays ended kept stands.whole (inside.resolve_right opened) stands.before'
      stands.rest' here'
    omega

def Away (f : Frame) (left : Text) (o : Option Match) : Prop :=
  ∀ m, o = some m → ¬ f.Closed ∧ Text.size f.text + Text.size left ≤ m.start.offset

theorem find?_away {left : Text} (opened : ¬ f.Closed)
    (far : c.offset = Text.size f.text + Text.size left) : f.Away left (p.find? c) := by
  intro m found
  have leads := (Pattern.find?_reached found).2.1.offset
  exact ⟨opened, by omega⟩

theorem fits_find? (fits : f.Fits p) (stands : f.Stands u z c c') :
    (∃ m m' v w, p.find? c = some m ∧ p.find? c' = some m' ∧
      (∃ a b, f.Stands a b m.start m'.start) ∧ f.Inside w ∧ f.Stands v w m.stop m'.stop) ∨
    (f.Away f.left (p.find? c) ∧ f.Away f.left' (p.find? c')) := by
  induction z generalizing u c c' with
  | nil =>
    by_cases closed : f.Closed
    · have last : c.rest = [] := by rw [stands.rest, closed.1, List.nil_append]
      have last' : c'.rest = [] := by rw [stands.rest', closed.2, List.nil_append]
      have search : p.find? c = p.matchAt? c := by
        simp [Pattern.find?_step p c, Scan.next?_last last]
      have search' : p.find? c' = p.matchAt? c' := by
        simp [Pattern.find?_step p c', Scan.next?_last last']
      rcases fits_matchAt? fits (.inr closed) stands with ⟨here, here'⟩ | found
      · rw [search, search', here, here']
        exact .inr ⟨by simp [Away], by simp [Away]⟩
      · obtain ⟨m, m', v, w, here, here', inside, there⟩ := found
        refine .inl ⟨m, m', v, w, search.trans here, search'.trans here', ?_, inside, there⟩
        rw [Pattern.matchAt?_start here, Pattern.matchAt?_start here']
        exact ⟨u, [], stands⟩
    · have whole : f.text = u := by simpa using stands.whole
      refine .inr ⟨find?_away closed ?_, find?_away closed ?_⟩
      · rw [stands.offset, whole]
      · rw [stands.offset', whole]
  | cons x z ih =>
    have more := Scan.next?_rest (stands.rest.trans List.cons_append)
    have more' := Scan.next?_rest (stands.rest'.trans List.cons_append)
    rcases fits_matchAt? fits (.inl (by simp)) stands with ⟨here, here'⟩ | found
    · have search : p.find? c = p.find? (c.advance x (z ++ f.right)) := by
        rw [Pattern.find?_step p c, here, more]
        rfl
      have search' : p.find? c' = p.find? (c'.advance x (z ++ f.right')) := by
        rw [Pattern.find?_step p c', here', more']
        rfl
      rw [search, search']
      exact ih stands.advance
    · obtain ⟨m, m', v, w, here, here', inside, there⟩ := found
      have search : p.find? c = some m := by rw [Pattern.find?_step p c, here]; rfl
      have search' : p.find? c' = some m' := by rw [Pattern.find?_step p c', here']; rfl
      refine .inl ⟨m, m', v, w, search, search', ?_, inside, there⟩
      rw [Pattern.matchAt?_start here, Pattern.matchAt?_start here']
      exact ⟨u, x :: z, stands⟩

structure Level (f : Frame) : Prop where
  head : f.left.head? = f.left'.head?
  slashes : (f.left.takeWhile (· == '\\')).length = (f.left'.takeWhile (· == '\\')).length

theorem Level.before_head (level : f.Level) (stands : f.Stands u z c c') :
    c.before.head? = c'.before.head? := by
  rw [stands.before, stands.before', List.head?_append, List.head?_append, level.head]

theorem Level.edge (level : f.Level) : f.EdgeAgrees fun _ => true := by
  intro l c c' _ stands inside
  apply Look.holds_congr
  · rw [stands.before, stands.before']
    exact level.head
  · rw [stands.rest, stands.rest']
    rcases inside with more | ⟨right, right'⟩
    · cases whole : f.text with
      | nil => exact absurd whole more
      | cons x rest => rfl
    · rw [right, right']

theorem Level.escaped (level : f.Level) (stands : f.Stands u z c c') :
    c.isEscaped = c'.isEscaped := by
  unfold Cursor.isEscaped
  rw [stands.before, stands.before', List.takeWhile_append, List.takeWhile_append]
  split
  · rw [List.length_append, List.length_append, level.slashes]
  · rfl

theorem Level.fits (level : f.Level) (closed : f.Closed) (p : Pattern) : f.Fits p :=
  ⟨⟨_, Pattern.each_any p.node, level.edge⟩, .inl closed⟩

theorem isEmpty_agrees {a b v w : Text} (starts : f.Stands a b m.start m'.start)
    (stops : f.Stands v w m.stop m'.stop) : m.isEmpty = m'.isEmpty := by
  unfold Match.isEmpty
  rw [starts.offset, starts.offset', stops.offset, stops.offset', Bool.eq_iff_iff]
  simp only [beq_iff_eq]
  omega

end Pattern.Frame

namespace Rules.Finder

open Pattern Pattern.Frame

variable {f : Frame} {p q : Pattern} {u z : Text} {c c' d d' stop : Cursor} {m m' : Match}
  {multiline escapable : Bool}

theorem closing?_behind {bound : Nat} (found : q.find? c = some m)
    (closes : closing? q escapable (bound + 1) c = some stop) : m.start.offset ≤ stop.offset := by
  have ahead := (Pattern.matchAt?_ahead (Pattern.find?_reached found).1).offset
  simp only [closing?, found] at closes
  split at closes
  · have later := (closing?_ahead _ closes).offset
    omega
  · cases closes
    exact ahead

def Beyond (f : Frame) (left : Text) (o : Option Cursor) : Prop :=
  ∀ stop, o = some stop → ¬ f.Closed ∧ Text.size f.text + Text.size left ≤ stop.offset

theorem closing?_beyond {left : Text} {bound : Nat} (away : f.Away left (q.find? c)) :
    Beyond f left (closing? q escapable (bound + 1) c) := by
  intro stop closes
  cases found : q.find? c with
  | none => simp [closing?, found] at closes
  | some m =>
    obtain ⟨opened, far⟩ := away m found
    have later := closing?_behind found closes
    exact ⟨opened, by omega⟩

theorem closing?_agrees (fits : f.Fits q) (level : f.Level) {bound bound' : Nat}
    (enough : c.rest.length < bound) (enough' : c'.rest.length < bound')
    (stands : f.Stands u z c c') :
    (∃ stop stop' v w, closing? q escapable bound c = some stop ∧
      closing? q escapable bound' c' = some stop' ∧ f.Inside w ∧ f.Stands v w stop stop') ∨
    (Beyond f f.left (closing? q escapable bound c) ∧
      Beyond f f.left' (closing? q escapable bound' c')) := by
  induction bound generalizing bound' c c' u z with
  | zero => omega
  | succ bound ih =>
    obtain ⟨bound', rfl⟩ := Nat.exists_eq_succ_of_ne_zero (Nat.ne_of_gt (Nat.zero_lt_of_lt enough'))
    rcases fits_find? fits stands with found | ⟨away, away'⟩
    · obtain ⟨m, m', v, w, here, here', ⟨a, b, starts⟩, inside, stops⟩ := found
      obtain ⟨there, leads, -⟩ := Pattern.find?_reached here
      obtain ⟨there', leads', -⟩ := Pattern.find?_reached here'
      have onward := Pattern.matchAt?_ahead there
      have onward' := Pattern.matchAt?_ahead there'
      simp only [closing?, here, here', ← isEmpty_agrees starts stops, ← level.escaped starts]
      by_cases escaped : (escapable && !m.isEmpty && m.start.isEscaped) = true
      · rw [if_pos escaped, if_pos escaped]
        simp only [Bool.and_eq_true, Bool.not_eq_true'] at escaped
        have moved := escaped.1.2
        have moved' := (isEmpty_agrees starts stops).symm.trans moved
        have fewer := Pattern.shorter_of_moved there moved
        have fewer' := Pattern.shorter_of_moved there' moved'
        have first := leads.length_le
        have first' := leads'.length_le
        exact ih (by omega) (by omega) stops
      · rw [if_neg escaped, if_neg escaped]
        exact .inl ⟨m.stop, m'.stop, v, w, rfl, rfl, inside, stops⟩
    · exact .inr ⟨closing?_beyond away, closing?_beyond away'⟩

theorem closing?_closed (closed : f.Closed) (level : f.Level) {bound : Nat}
    (enough : c.rest.length < bound) (enough' : c'.rest.length < bound)
    (stands : f.Stands u z c c') :
    (closing? q escapable bound c = none ∧ closing? q escapable bound c' = none) ∨
    ∃ stop stop' v w, closing? q escapable bound c = some stop ∧
      closing? q escapable bound c' = some stop' ∧ f.Stands v w stop stop' := by
  rcases closing?_agrees (level.fits closed q) level enough enough' stands with found | away
  · obtain ⟨stop, stop', v, w, closes, closes', -, there⟩ := found
    exact .inr ⟨stop, stop', v, w, closes, closes', there⟩
  · refine .inl ⟨?_, ?_⟩
    · exact Option.eq_none_iff_forall_ne_some.mpr fun stop found => (away.1 stop found).1 closed
    · exact Option.eq_none_iff_forall_ne_some.mpr fun stop found => (away.2 stop found).1 closed

theorem reachOf_agrees (bounded : f.Closed ∨ (multiline = false ∧ f.Ended)) {v w : Text}
    (inside : f.Inside w) (stops : f.Stands v w m.stop m'.stop) :
    ∃ content b, reachOf multiline m = (content, b ++ f.right) ∧
      reachOf multiline m' = (content, b ++ f.right') ∧ content ++ b = w := by
  unfold reachOf
  rw [stops.rest, stops.rest']
  by_cases closed : f.Closed
  · rw [closed.1, closed.2, List.append_nil]
    cases multiline with
    | true => exact ⟨w, [], by simp⟩
    | false => exact ⟨_, _, by simp, by simp, Text.lineContent_parts w⟩
  · obtain ⟨single, t, x, last, ends⟩ := bounded.resolve_left closed
    have member := ended_member last stops.whole (inside.resolve_right closed)
    have behind := Text.lineContent_ends ends member
    subst single
    refine ⟨_, _, ?_, ?_, Text.lineContent_parts w⟩
    · simp [Text.lineContent_append behind]
    · simp [Text.lineContent_append behind]

theorem behindBegin?_agrees {a b v w : Text} (starts : f.Stands a b m.start m'.start)
    (inside : f.Inside w) (stops : f.Stands v w m.stop m'.stop) :
    (behindBegin? m = none ∧ behindBegin? m' = none) ∨
    ∃ d d' a b, behindBegin? m = some d ∧ behindBegin? m' = some d' ∧ f.Stands a b d d' := by
  unfold behindBegin?
  rw [← isEmpty_agrees starts stops]
  split
  · cases w with
    | nil =>
      obtain ⟨right, right'⟩ := inside.resolve_left (by simp)
      have last := stops.rest
      have last' := stops.rest'
      rw [right] at last
      rw [right'] at last'
      exact .inl ⟨Scan.next?_last last, Scan.next?_last last'⟩
    | cons x w =>
      exact .inr ⟨_, _, _, _, Scan.next?_rest (stops.rest.trans List.cons_append),
        Scan.next?_rest (stops.rest'.trans List.cons_append), stops.advance⟩
  · exact .inr ⟨_, _, _, _, rfl, rfl, stops⟩

end Rules.Finder

namespace Pattern.Frame

def Near (f : Frame) (c c' : Cursor) : Prop := ∃ u z, f.Stands u z c c'

def Shifted (f : Frame) (s s' : Span) : Prop :=
  s.start + Text.size f.left' = s'.start + Text.size f.left ∧
    s.stop + Text.size f.left' = s'.stop + Text.size f.left

end Pattern.Frame

namespace Rules.Finder

open Pattern Pattern.Frame

variable {f : Frame} {p q : Pattern} {u z : Text} {c c' d d' stop : Cursor} {m m' : Match}
  {multiline escapable : Bool}

theorem stride_agrees (fits : f.Fits p) (inside : f.Inside z) (stands : f.Stands u z c c') :
    Move.Alike f.Near f.Shifted (p.stride c) (p.stride c') := by
  unfold stride
  rcases fits_matchAt? fits inside stands with ⟨here, here'⟩ | found
  · rw [here, here']
    exact .on
  · obtain ⟨m, m', v, w, here, here', -, stops⟩ := found
    have starts : f.Stands u z m.start m'.start := by
      rw [Pattern.matchAt?_start here, Pattern.matchAt?_start here']
      exact stands
    rw [here, here']
    dsimp only
    rw [← isEmpty_agrees starts stops]
    split
    · exact .on
    · refine .jump ⟨v, w, stops⟩ (.cons ⟨?_, ?_⟩ .nil)
      · simp only [Match.span, starts.offset, starts.offset']
        omega
      · simp only [Match.span, stops.offset, stops.offset']
        omega

theorem closing?_within (level : f.Level) {a inside : Text} (before : d.before = a.reverse ++ f.left)
    (before' : d'.before = a.reverse ++ f.left') :
    (closing? q escapable (inside.length + 1) (d.withRest inside) = none ∧
      closing? q escapable (inside.length + 1) (d'.withRest inside) = none) ∨
    ∃ stop stop' v w, closing? q escapable (inside.length + 1) (d.withRest inside) = some stop ∧
      closing? q escapable (inside.length + 1) (d'.withRest inside) = some stop' ∧
      a ++ inside = v ++ w ∧ stop.rest = w ∧ stop'.rest = w ∧
      stop.before = v.reverse ++ f.left ∧ stop'.before = v.reverse ++ f.left' := by
  let g : Frame := ⟨a ++ inside, f.left, [], f.left', []⟩
  have stands : g.Stands a inside (d.withRest inside) (d'.withRest inside) :=
    ⟨rfl, before, (List.append_nil _).symm, before', (List.append_nil _).symm⟩
  have even : g.Level := ⟨level.head, level.slashes⟩
  have enough : inside.length < inside.length + 1 := Nat.lt_succ_self _
  rcases closing?_closed ⟨rfl, rfl⟩ even enough enough stands with none_found | found
  · exact .inl none_found
  · obtain ⟨stop, stop', v, w, closes, closes', there⟩ := found
    refine .inr ⟨stop, stop', v, w, closes, closes', there.whole, ?_, ?_, there.before,
      there.before'⟩
    · exact there.rest.trans (List.append_nil _)
    · exact there.rest'.trans (List.append_nil _)

theorem afterBegin_agrees (level : f.Level) (bounded : f.Closed ∨ (multiline = false ∧ f.Ended))
    {a b v w : Text} (starts : f.Stands a b m.start m'.start) (inside : f.Inside w)
    (stops : f.Stands v w m.stop m'.stop) :
    Move.Alike f.Near f.Shifted (afterBegin q multiline escapable m)
      (afterBegin q multiline escapable m') := by
  obtain ⟨content, beyond, reach, reach', parts⟩ := reachOf_agrees bounded inside stops
  unfold afterBegin
  rcases behindBegin?_agrees starts inside stops with ⟨last, last'⟩ | next
  · rw [last, last']
    exact .on
  · obtain ⟨d, d', a', b', next, next', there⟩ := next
    rw [next, next', reach, reach']
    dsimp only
    rw [← level.escaped starts, ← isEmpty_agrees starts stops]
    split
    · exact .jump ⟨a', b', there⟩ .nil
    · split
      · exact .jump ⟨a', b', there⟩ .nil
      · rename_i full
        have put_back := inside_parts multiline next (by rw [reach]; exact full)
        rw [reach, there.rest, ← List.append_assoc] at put_back
        have ahead := List.append_cancel_right put_back
        generalize (if m.isEmpty = true then List.drop 1 content else content) = inside at ahead
        rcases closing?_within level there.before there.before' with ⟨closes, closes'⟩ | found
        · rw [closes, closes']
          exact .jump ⟨a', b', there⟩ .nil
        · obtain ⟨stop, stop', v', w', closes, closes', whole, rest, rest', before, before'⟩ :=
            found
          rw [closes, closes']
          refine .jump ⟨v', w' ++ beyond, ?_⟩ (.cons ⟨?_, ?_⟩ .nil)
          · refine ⟨?_, before, ?_, before', ?_⟩
            · rw [there.whole, ← ahead, ← List.append_assoc, whole, List.append_assoc]
            · simp [Cursor.withRest, rest]
            · simp [Cursor.withRest, rest']
          · simp only [starts.offset, starts.offset']
            omega
          · simp only [stop.offset_eq, stop'.offset_eq, before, before', Text.size_append,
              Text.size_reverse]
            omega

theorem pairStride_agrees (fits : f.Fits p) (level : f.Level)
    (bounded : f.Closed ∨ (multiline = false ∧ f.Ended)) (held : z ≠ [])
    (stands : f.Stands u z c c') :
    Move.Alike f.Near f.Shifted (pairStride p q multiline escapable c)
      (pairStride p q multiline escapable c') := by
  have more : c.rest.isEmpty = false := by simp [stands.rest, held]
  have more' : c'.rest.isEmpty = false := by simp [stands.rest', held]
  unfold pairStride
  rw [more, more']
  rcases fits_matchAt? fits (.inl held) stands with ⟨here, here'⟩ | found
  · rw [here, here']
    exact .on
  · obtain ⟨m, m', v, w, here, here', inside, stops⟩ := found
    have starts : f.Stands u z m.start m'.start := by
      rw [Pattern.matchAt?_start here, Pattern.matchAt?_start here']
      exact stands
    rw [here, here']
    exact afterBegin_agrees level bounded starts inside stops

end Rules.Finder

end LiveHighlight
