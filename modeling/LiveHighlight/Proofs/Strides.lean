import LiveHighlight.Proofs.Scanning
import LiveHighlight.Rules.Finder

-- What rules find, place by place. Searching for the leftmost match and going on behind it is a
-- scan that tests every place it comes to once.

namespace LiveHighlight

namespace Pattern

variable {p : Pattern} {c d : Cursor} {m : Match} {α : Type} {step : Cursor → Move α} {l : List α}

theorem matchAt?_start (found : p.matchAt? c = some m) : m.start = c := by
  obtain ⟨_, _, rfl⟩ := Option.map_eq_some_iff.mp found
  rfl

theorem matchAt?_leads {ok : Char → Prop} {set : CharSet → Bool} {look : Look → Bool}
    (takes : ∀ s, set s = true → ∀ x, s.contains x = true → ok x)
    (only : p.node.each set look = true) (found : p.matchAt? c = some m) : c.Leads ok m.stop := by
  obtain ⟨found, ran, rfl⟩ := Option.map_eq_some_iff.mp found
  exact (p.node.run_forward set look takes only Step.forward_finish c [] []).ends _ _ ran

theorem each_any (n : Node) : n.each (fun _ => true) (fun _ => true) = true := by
  induction n with
  | seq a b first second => simp [Node.each, first, second]
  | alt id a b first second => simp [Node.each, first, second]
  | group i n ih => exact ih
  | opt id greedy n ih => exact ih
  | star id greedy n ih => exact ih
  | plus id greedy n ih => exact ih
  | empty => rfl
  | set s => rfl
  | look l => rfl

theorem matchAt?_ahead (found : p.matchAt? c = some m) : c.Leads (fun _ => True) m.stop :=
  matchAt?_leads (by simp) (each_any p.node) found

theorem find?_step (p : Pattern) (c : Cursor) :
    p.find? c = (p.matchAt? c).or (c.next?.bind p.find?) := by
  obtain ⟨before, rest, offset, exact_offset⟩ := c
  cases rest with
  | nil => simp [find?, Cursor.onward, Cursor.onwardFrom, Cursor.withRest, Cursor.next?]
  | cons x rest =>
    simp only [find?, Cursor.onward, Cursor.onwardFrom, Cursor.withRest, Cursor.next?,
      List.findSome?_cons, Option.bind_some]
    cases p.matchAt? ⟨before, x :: rest, offset, exact_offset⟩ <;> rfl

-- Whatever is done at places with a match, a scan passes over all places before the leftmost one.
theorem find?_missed (blank : ∀ d, p.matchAt? d = none → step d = .on)
    (nothing : p.find? c = none) : Scan step c [] := by
  generalize ahead : c.rest = rest
  induction rest generalizing c with
  | nil =>
    rw [find?_step, Option.or_eq_none_iff] at nothing
    exact .stay (blank c nothing.1) ahead
  | cons x rest ih =>
    have more := Scan.next?_rest ahead
    rw [find?_step, Option.or_eq_none_iff, more] at nothing
    exact .skip (blank c nothing.1) more (ih nothing.2 rfl)

theorem find?_reached (found : p.find? c = some m) :
    p.matchAt? m.start = some m ∧ c.Leads (fun _ => True) m.start ∧
      ∀ {α : Type} {step : Cursor → Move α} {l : List α},
        (∀ d, p.matchAt? d = none → step d = .on) → Scan step m.start l → Scan step c l := by
  generalize ahead : c.rest = rest
  induction rest generalizing c with
  | nil =>
    rw [find?_step, Scan.next?_last ahead] at found
    have here : p.matchAt? c = some m := by simpa using found
    rw [matchAt?_start here]
    exact ⟨here, c.leads_self, fun _ scan => scan⟩
  | cons x rest ih =>
    have more := Scan.next?_rest ahead
    rw [find?_step, more] at found
    cases here : p.matchAt? c with
    | some other =>
      rw [here] at found
      cases found
      rw [matchAt?_start here]
      exact ⟨here, c.leads_self, fun _ scan => scan⟩
    | none =>
      rw [here] at found
      obtain ⟨there, leads, passes⟩ := ih found rfl
      have onward : c.Leads (fun _ => True) _ := Cursor.leads_advance ahead trivial
      exact ⟨there, onward.trans leads,
        fun blank scan => .skip (blank c here) more (passes blank scan)⟩

def stride (p : Pattern) (c : Cursor) : Move Span :=
  match p.matchAt? c with
  | some m => if m.isEmpty then .on else .jump m.stop [m.span]
  | none => .on

def strides (l : List Match) : List Span := (l.map Match.span).filter fun s => !s.isEmpty

theorem stride_blank (d : Cursor) (nothing : p.matchAt? d = none) : p.stride d = .on := by
  simp [stride, nothing]

theorem span_isEmpty (found : p.matchAt? m.start = some m) : m.span.isEmpty = m.isEmpty := by
  have ahead := (matchAt?_ahead found).offset
  rw [Bool.eq_iff_iff, Span.isEmpty, Match.isEmpty, decide_eq_true_iff, beq_iff_eq]
  simp only [Match.span]
  omega

theorem shorter_of_moved (found : p.matchAt? m.start = some m) (moved : m.isEmpty = false) :
    m.stop.rest.length < m.start.rest.length := by
  have onward := matchAt?_ahead found
  refine Nat.lt_of_le_of_ne onward.length_le fun same => ?_
  rw [Match.isEmpty, ← onward.same_of_length same] at moved
  simp at moved

theorem stop_of_isEmpty (found : p.matchAt? m.start = some m) (still : m.isEmpty = true) :
    m.stop = m.start := by
  simp only [Match.isEmpty, beq_iff_eq] at still
  exact ((matchAt?_ahead found).same_of_offset still).symm

theorem stride_strict (p : Pattern) : Scan.Strict p.stride := by
  intro c d l jumps
  unfold stride at jumps
  split at jumps
  · rename_i m here
    have start := matchAt?_start here
    subst start
    split at jumps
    · cases jumps
    · rename_i moved
      cases jumps
      have onward := matchAt?_ahead here
      exact ⟨onward, onward.offset_lt (shorter_of_moved here (Bool.eq_false_iff.mpr moved)),
        .inr rfl⟩
  · cases jumps

theorem stride_last (p : Pattern) (last : c.rest = []) : p.stride c = .on := by
  unfold stride
  split
  · rename_i m here
    have start := matchAt?_start here
    subst start
    split
    · rfl
    · rename_i moved
      have fewer := shorter_of_moved here (Bool.eq_false_iff.mpr moved)
      rw [last] at fewer
      cases fewer
  · rfl

theorem stride_found {l : List Match} (found : p.find? c = some m)
    (rest : Scan p.stride m.stop (strides l)) : Scan p.stride c (strides (m :: l)) := by
  obtain ⟨here, leads, passes⟩ := find?_reached found
  apply passes stride_blank
  have kind := span_isEmpty here
  cases still : m.isEmpty with
  | true =>
    rw [← stop_of_isEmpty here still]
    rw [still] at kind
    simpa [strides, kind] using rest
  | false =>
    have step : p.stride m.start = .jump m.stop [m.span] := by simp [stride, here, still]
    rw [still] at kind
    simpa [strides, kind] using Scan.jump step rest

theorem find?_fewer (found : p.find? c = some m)
    (fresh : ¬ (m.isEmpty = true ∧ some c.offset = some m.stop.offset)) :
    m.stop.rest.length < c.rest.length := by
  obtain ⟨here, leads, -⟩ := find?_reached found
  have ahead := matchAt?_ahead here
  have onward := leads.trans ahead
  refine Nat.lt_of_le_of_ne onward.length_le fun same => ?_
  have still := onward.same_of_length same
  have back : m.start = c := by
    have first := leads.offset
    have second := ahead.offset
    rw [← still] at second
    exact (leads.same_of_offset (by omega)).symm
  apply fresh
  rw [Match.isEmpty, back, ← still]
  simp

-- A row may start at a place where the last match ended; an empty match there was found already.
theorem row_scan (bound : Nat) (c : Cursor) (last : Option Nat)
    (enough : c.rest.length < bound)
    (placed : last = some c.offset ∨ (last = none ∧ c.rest.length + 1 < bound)) :
    Scan p.stride c (strides (p.row c last bound)) := by
  induction bound generalizing c last with
  | zero => omega
  | succ bound ih =>
    simp only [row, findAfter?]
    cases found : p.find? c with
    | none => exact find?_missed stride_blank found
    | some m =>
      obtain ⟨here, leads, -⟩ := find?_reached found
      have onward := leads.trans (matchAt?_ahead here)
      dsimp only
      by_cases again : m.isEmpty ∧ last = some m.stop.offset
      · -- the empty match where the last one ended: the search moves on by one character
        rw [if_pos again]
        obtain ⟨still, stopped⟩ := again
        have same : c = m.start := by
          apply leads.same_of_offset
          rcases placed with at_last | ⟨none_last, -⟩
          · rw [at_last, Option.some.injEq, stop_of_isEmpty here still] at stopped
            exact stopped
          · rw [none_last] at stopped
            cases stopped
        have blank : p.stride c = .on := by
          rw [same]
          simp [stride, here, still]
        cases ahead : c.rest with
        | nil =>
          simp only [Scan.next?_last ahead]
          exact .stay blank ahead
        | cons x rest =>
          have more := Scan.next?_rest ahead
          have few : rest.length < bound := by
            rw [ahead, List.length_cons] at enough
            omega
          simp only [more]
          apply Scan.skip blank more
          cases next : p.find? (c.advance x rest) with
          | none => exact find?_missed stride_blank next
          | some n =>
            obtain ⟨there, further, -⟩ := find?_reached next
            have fewer := (further.trans (matchAt?_ahead there)).length_le
            apply stride_found next
            apply ih _ _ _ (.inl rfl)
            exact Nat.lt_of_le_of_lt fewer few
      · rw [if_neg again]
        apply stride_found found
        apply ih _ _ _ (.inl rfl)
        rcases placed with at_last | ⟨-, more⟩
        · have fewer := find?_fewer found (by rwa [← at_last])
          omega
        · have fewer := onward.length_le
          omega

theorem allMatches_scan (t : Text) : Scan p.stride (.start t) (strides (p.allMatches t)) :=
  row_scan _ _ _ (by simp [Cursor.start]) (.inr ⟨rfl, by simp [Cursor.start]⟩)

end Pattern

namespace Rules.Finder

open Pattern (Match)

variable {p q : Pattern} {multiline escapable : Bool} {c d stop : Cursor} {m : Match}

theorem closing?_ahead (bound : Nat) (found : closing? q escapable bound c = some stop) :
    c.Leads (fun _ => True) stop := by
  induction bound generalizing c with
  | zero => cases found
  | succ bound ih =>
    simp only [closing?] at found
    split at found
    · cases found
    · rename_i m here
      obtain ⟨there, leads, -⟩ := Pattern.find?_reached here
      have onward := leads.trans (Pattern.matchAt?_ahead there)
      split at found
      · exact onward.trans (ih found)
      · cases found
        exact onward

-- The text that a region may take up behind its begin match, and what lies beyond its limit.
def reachOf (multiline : Bool) (m : Match) : Text × Text :=
  if multiline then (m.stop.rest, []) else Text.lineContent m.stop.rest

def behindBegin? (m : Match) : Option Cursor := if m.isEmpty then m.stop.next? else some m.stop

def afterBegin (q : Pattern) (multiline escapable : Bool) (m : Match) : Move Span :=
  match behindBegin? m with
  | none => .on
  | some d =>
    let (content, beyond) := reachOf multiline m
    if escapable && m.start.isEscaped then .jump d []
    else if m.isEmpty && content.isEmpty then .jump d []
    else
      let inside := if m.isEmpty then content.drop 1 else content
      match closing? q escapable (inside.length + 1) (d.withRest inside) with
      | none => .jump d []
      | some stop => .jump (stop.withRest (stop.rest ++ beyond)) [⟨m.start.offset, stop.offset⟩]

def pairStride (p q : Pattern) (multiline escapable : Bool) (c : Cursor) : Move Span :=
  if c.rest.isEmpty then .on
  else
    match p.matchAt? c with
    | none => .on
    | some m => afterBegin q multiline escapable m

theorem pairStride_blank (d : Cursor) (nothing : p.matchAt? d = none) :
    pairStride p q multiline escapable d = .on := by
  simp [pairStride, nothing]

theorem beginEndFrom_step (bound : Nat) (held : c.rest ≠ []) (found : p.find? c = some m) :
    beginEndFrom p q multiline escapable (bound + 1) c =
      match afterBegin q multiline escapable m with
      | .jump d l => l ++ beginEndFrom p q multiline escapable bound d
      | _ => [] := by
  have more : c.rest.isEmpty = false := by simpa using held
  simp only [beginEndFrom, more, found, afterBegin, behindBegin?, reachOf, Bool.false_eq_true,
    if_false]
  cases (if m.isEmpty = true then m.stop.next? else some m.stop) with
  | none => rfl
  | some d =>
    by_cases escaped : (escapable && m.start.isEscaped) = true
    · simp [escaped]
    · by_cases nothing : (m.isEmpty && (reachOf multiline m).1.isEmpty) = true
      · unfold reachOf at nothing
        simp [escaped, nothing]
      · unfold reachOf at nothing
        simp only [escaped, nothing, Bool.false_eq_true, if_false]
        generalize closing? q escapable _ _ = closed
        cases closed <;> rfl

theorem reachOf_parts (multiline : Bool) (m : Match) :
    (reachOf multiline m).1 ++ (reachOf multiline m).2 = m.stop.rest := by
  unfold reachOf
  split
  · simp
  · exact Text.lineContent_parts _

theorem inside_parts (multiline : Bool) (d_next : behindBegin? m = some d)
    (full : ¬ (m.isEmpty && (reachOf multiline m).1.isEmpty) = true) :
    (if m.isEmpty then (reachOf multiline m).1.drop 1 else (reachOf multiline m).1) ++
      (reachOf multiline m).2 = d.rest := by
  have parts := reachOf_parts multiline m
  unfold behindBegin? at d_next
  split
  · rename_i still
    rw [if_pos still] at d_next
    rw [still, Bool.true_and] at full
    generalize (reachOf multiline m).1 = content at full parts
    cases content with
    | nil => simp at full
    | cons x content =>
      cases (Scan.next?_rest parts.symm).symm.trans d_next
      rfl
  · rename_i moved
    rw [if_neg moved] at d_next
    cases d_next
    exact parts

theorem behindBegin?_ahead (here : p.matchAt? m.start = some m) (d_next : behindBegin? m = some d) :
    m.start.Leads (fun _ => True) d ∧ d.rest.length < m.start.rest.length := by
  have onward := Pattern.matchAt?_ahead here
  unfold behindBegin? at d_next
  split at d_next
  · rename_i still
    rw [Pattern.stop_of_isEmpty here still] at d_next
    cases ahead : m.start.rest with
    | nil => simp [Scan.next?_last ahead] at d_next
    | cons x rest =>
      cases (Scan.next?_rest ahead).symm.trans d_next
      exact ⟨Cursor.leads_advance ahead trivial, by simp [Cursor.advance]⟩
  · rename_i moved
    cases d_next
    exact ⟨onward, Pattern.shorter_of_moved here (Bool.eq_false_iff.mpr moved)⟩

theorem afterBegin_ahead {l : List Span} (here : p.matchAt? m.start = some m)
    (jumps : afterBegin q multiline escapable m = .jump d l) :
    m.start.Leads (fun _ => True) d ∧ d.rest.length < m.start.rest.length ∧
      (l = [] ∨ l = [⟨m.start.offset, d.offset⟩]) := by
  unfold afterBegin at jumps
  split at jumps
  · cases jumps
  · rename_i e e_next
    have onward := behindBegin?_ahead here e_next
    dsimp only at jumps
    split at jumps
    · cases jumps
      exact ⟨onward.1, onward.2, .inl rfl⟩
    · split at jumps
      · cases jumps
        exact ⟨onward.1, onward.2, .inl rfl⟩
      · rename_i full
        split at jumps
        · cases jumps
          exact ⟨onward.1, onward.2, .inl rfl⟩
        · rename_i stop found
          cases jumps
          obtain ⟨u, -, rest, before⟩ := closing?_ahead _ found
          have parts := inside_parts multiline e_next full
          have behind : e.Leads (fun _ => True)
              (stop.withRest (stop.rest ++ (reachOf multiline m).2)) := by
            refine ⟨u, by simp, ?_, before⟩
            simp only [Cursor.withRest] at rest ⊢
            rw [← List.append_assoc, ← rest, parts]
          have fewer := behind.length_le
          exact ⟨onward.1.trans behind, by omega, .inr rfl⟩

theorem behindBegin?_last (here : p.matchAt? m.start = some m) (last : m.start.rest = []) :
    behindBegin? m = none := by
  have onward := Pattern.matchAt?_ahead here
  have fewer := onward.length_le
  rw [last, List.length_nil] at fewer
  have same := onward.same_of_length (by rw [last, List.length_nil]; omega)
  have still : m.isEmpty = true := by
    rw [Match.isEmpty, ← same]
    simp
  rw [behindBegin?, if_pos still, ← same, Scan.next?_last last]

theorem behindBegin?_more (here : p.matchAt? m.start = some m) (held : m.start.rest ≠ []) :
    ∃ d, behindBegin? m = some d := by
  unfold behindBegin?
  split
  · rename_i still
    rw [Pattern.stop_of_isEmpty here still]
    obtain ⟨x, rest, head⟩ := List.exists_cons_of_ne_nil held
    exact ⟨_, Scan.next?_rest head⟩
  · exact ⟨_, rfl⟩

theorem afterBegin_jumps (q : Pattern) (multiline escapable : Bool)
    (here : p.matchAt? m.start = some m) (held : m.start.rest ≠ []) :
    ∃ d l, afterBegin q multiline escapable m = .jump d l := by
  obtain ⟨d, d_next⟩ := behindBegin?_more here held
  unfold afterBegin
  rw [d_next]
  dsimp only
  split
  · exact ⟨_, _, rfl⟩
  · split
    · exact ⟨_, _, rfl⟩
    · split
      · exact ⟨_, _, rfl⟩
      · exact ⟨_, _, rfl⟩

theorem pairStride_strict (p q : Pattern) (multiline escapable : Bool) :
    Scan.Strict (pairStride p q multiline escapable) := by
  intro c d l jumps
  unfold pairStride at jumps
  split at jumps
  · cases jumps
  · split at jumps
    · cases jumps
    · rename_i m here
      have start := Pattern.matchAt?_start here
      subst start
      obtain ⟨leads, fewer, finds⟩ := afterBegin_ahead here jumps
      exact ⟨leads, leads.offset_lt fewer, finds⟩

theorem pairStride_last (last : c.rest = []) : pairStride p q multiline escapable c = .on := by
  simp [pairStride, last]

theorem beginEnd_scan (bound : Nat) (c : Cursor) (enough : c.rest.length < bound) :
    Scan (pairStride p q multiline escapable) c
      (beginEndFrom p q multiline escapable bound c) := by
  induction bound generalizing c with
  | zero => omega
  | succ bound ih =>
    cases ahead : c.rest with
    | nil =>
      have nothing : beginEndFrom p q multiline escapable (bound + 1) c = [] := by
        simp [beginEndFrom, ahead]
      rw [nothing]
      exact .stay (by simp [pairStride, ahead]) ahead
    | cons x rest =>
      have held : c.rest ≠ [] := by simp [ahead]
      cases found : p.find? c with
      | none =>
        have nothing : beginEndFrom p q multiline escapable (bound + 1) c = [] := by
          simp [beginEndFrom, ahead, found]
        rw [nothing]
        exact Pattern.find?_missed pairStride_blank found
      | some m =>
        obtain ⟨here, leads, passes⟩ := Pattern.find?_reached found
        have fewer := leads.length_le
        rw [beginEndFrom_step bound held found]
        apply passes pairStride_blank
        by_cases last : m.start.rest = []
        · have nothing : afterBegin q multiline escapable m = .on := by
            rw [afterBegin, behindBegin?_last here last]
          rw [nothing]
          exact .stay (by simp [pairStride, last]) last
        · obtain ⟨d, l, jumps⟩ := afterBegin_jumps q multiline escapable here last
          have onward := (afterBegin_ahead here jumps).2.1
          have step : pairStride p q multiline escapable m.start = .jump d l := by
            simp [pairStride, last, here, jumps]
          rw [jumps]
          exact .jump step (ih d (by omega))

end Rules.Finder

end LiveHighlight
