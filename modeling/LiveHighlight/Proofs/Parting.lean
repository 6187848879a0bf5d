import LiveHighlight.Proofs.MovedLines

-- Two texts that start alike. A search finds the same in both, up to a find that reaches the
-- place where the texts part.

namespace LiveHighlight

namespace Span

def holds (s : Span) (i : Nat) : Bool := s.start ≤ i && i < s.stop

def opensAt (s : Span) (v : Nat) : Bool := s.start < v && v ≤ s.stop

theorem holds_iff {s : Span} {i : Nat} : s.holds i = true ↔ s.start ≤ i ∧ i < s.stop := by
  simp [holds]

theorem opensAt_iff {s : Span} {v : Nat} : s.opensAt v = true ↔ s.start < v ∧ v ≤ s.stop := by
  simp [opensAt]

end Span

namespace Rules

variable {κ : Type} {v i n : Nat} {k : κ} {f : κ × Span} {x y : List (κ × Span)}

def covering (i : Nat) (l : List (κ × Span)) : List κ := (l.filter fun f => f.2.holds i).map Prod.fst

def openAt (v : Nat) (l : List (κ × Span)) : List (κ × Nat) :=
  (l.filter fun f => f.2.opensAt v).map fun f => (f.1, f.2.start)

-- What finds put before a place, each cut off there.
def clipped (v : Nat) (l : List (κ × Span)) : List (κ × Span) :=
  (l.map fun f => (f.1, (⟨f.2.start, min f.2.stop v⟩ : Span))).filter fun f => !f.2.isEmpty

def Apart (l : List (κ × Span)) : Prop := l.Pairwise fun f g => f.2.stop ≤ g.2.start

-- The same finds, up to one that only one side has and that reaches the place.
inductive Parted (v : Nat) : List (κ × Span) → List (κ × Span) → Prop where
  | beyond {x y : List (κ × Span)} (far : ∀ f ∈ x, v ≤ f.2.start) (far' : ∀ f ∈ y, v ≤ f.2.start) :
      Parted v x y
  | same {x y : List (κ × Span)} (f : κ × Span) (rest : Parted v x y) : Parted v (f :: x) (f :: y)
  | first {x y : List (κ × Span)} {f : κ × Span} (reaches : v ≤ f.2.stop)
      (later : ∀ g ∈ y, f.2.start ≤ g.2.start) : Parted v (f :: x) y
  | second {x y : List (κ × Span)} {f : κ × Span} (reaches : v ≤ f.2.stop)
      (later : ∀ g ∈ x, f.2.start ≤ g.2.start) : Parted v x (f :: y)

theorem covering_none (away : ∀ f ∈ x, f.2.holds i = false) : covering i x = [] := by
  have nothing : x.filter (fun f => f.2.holds i) = [] :=
    List.filter_eq_nil_iff.mpr fun f member => by simp [away f member]
  rw [covering, nothing, List.map_nil]

theorem covering_beyond (far : ∀ f ∈ x, v ≤ f.2.start) (before : i < v) : covering i x = [] := by
  apply covering_none
  intro f member
  have first := far f member
  apply Bool.eq_false_iff.mpr
  intro held
  have inside := (Span.holds_iff.mp held).1
  omega

theorem covering_append (i : Nat) (x y : List (κ × Span)) :
    covering i (x ++ y) = covering i x ++ covering i y := by
  simp [covering]

theorem covering_cons (i : Nat) (f : κ × Span) (x : List (κ × Span)) :
    covering i (f :: x) = (if f.2.holds i then [f.1] else []) ++ covering i x := by
  unfold covering
  rw [List.filter_cons]
  split <;> simp

theorem openAt_cons (v : Nat) (f : κ × Span) (x : List (κ × Span)) :
    openAt v (f :: x) = (if f.2.opensAt v then [(f.1, f.2.start)] else []) ++ openAt v x := by
  unfold openAt
  rw [List.filter_cons]
  split <;> simp

theorem clipped_cons (v : Nat) (f : κ × Span) (x : List (κ × Span)) :
    clipped v (f :: x) =
      (if f.2.start < min f.2.stop v then [(f.1, ⟨f.2.start, min f.2.stop v⟩)] else []) ++
        clipped v x := by
  unfold clipped
  rw [List.map_cons, List.filter_cons]
  simp only [Span.isEmpty, Bool.not_eq_true', decide_eq_false_iff_not, Nat.not_le]
  split <;> rfl

theorem clipped_beyond (far : ∀ f ∈ x, v ≤ f.2.start) : clipped v x = [] := by
  induction x with
  | nil => rfl
  | cons f x ih =>
    have first := far f (by simp)
    rw [clipped_cons, if_neg (by omega), ih fun g member => far g (by simp [member])]
    rfl

theorem openAt_clipped (v : Nat) (x : List (κ × Span)) : openAt v (clipped v x) = openAt v x := by
  induction x with
  | nil => rfl
  | cons f x ih =>
    rw [clipped_cons, openAt_cons]
    by_cases early : f.2.start < min f.2.stop v
    · have same : Span.opensAt ⟨f.2.start, min f.2.stop v⟩ v = f.2.opensAt v := by
        rw [Bool.eq_iff_iff, Span.opensAt_iff, Span.opensAt_iff]
        dsimp only
        omega
      rw [if_pos early, List.singleton_append, openAt_cons, ih]
      dsimp only
      rw [same]
    · have away : f.2.opensAt v = false := by
        apply Bool.eq_false_iff.mpr
        intro opens
        have reaches := Span.opensAt_iff.mp opens
        omega
      rw [if_neg early, List.nil_append, ih, away]
      rfl

theorem covering_clipped (before : i < v) (x : List (κ × Span)) :
    covering i (clipped v x) = covering i x := by
  induction x with
  | nil => rfl
  | cons f x ih =>
    rw [clipped_cons, covering_cons]
    by_cases early : f.2.start < min f.2.stop v
    · have same : Span.holds ⟨f.2.start, min f.2.stop v⟩ i = f.2.holds i := by
        rw [Bool.eq_iff_iff, Span.holds_iff, Span.holds_iff]
        dsimp only
        omega
      rw [if_pos early, List.singleton_append, covering_cons, ih]
      dsimp only
      rw [same]
    · have away : f.2.holds i = false := by
        apply Bool.eq_false_iff.mpr
        intro held
        have inside := Span.holds_iff.mp held
        omega
      rw [if_neg early, List.nil_append, ih, away]
      rfl

theorem open_alone (apart : Apart (f :: x)) (opens : f.2.opensAt v = true) :
    openAt v (f :: x) = [(f.1, f.2.start)] ∧ clipped v (f :: x) = [(f.1, ⟨f.2.start, v⟩)] := by
  obtain ⟨early, reaches⟩ := Span.opensAt_iff.mp opens
  have far : ∀ g ∈ x, v ≤ g.2.start := fun g member =>
    Nat.le_trans reaches ((List.pairwise_cons.mp apart).1 g member)
  have others := clipped_beyond far
  have cut : min f.2.stop v = v := Nat.min_eq_right reaches
  constructor
  · rw [openAt_cons, if_pos opens, ← openAt_clipped, others]
    rfl
  · rw [clipped_cons, cut, if_pos early, others]
    rfl

theorem clipped_opened (apart : Apart x) (later : ∀ f ∈ x, n ≤ f.2.start)
    (opened : openAt v x = [(k, n)]) : clipped v x = [(k, ⟨n, v⟩)] := by
  induction x with
  | nil => cases opened
  | cons f x ih =>
    cases opens : f.2.opensAt v with
    | true =>
      obtain ⟨alone, covers⟩ := open_alone apart opens
      cases alone.symm.trans opened
      exact covers
    | false =>
      rw [openAt_cons, opens] at opened
      have inner : openAt v x = [(k, n)] := opened
      have member : (k, n) ∈ openAt v x := by simp [inner]
      obtain ⟨g, held, same⟩ := List.mem_map.mp member
      cases same
      have stops := (List.pairwise_cons.mp apart).1 g (List.mem_filter.mp held).1
      have starts := later f (by simp)
      rw [clipped_cons, if_neg (by omega)]
      exact ih (List.pairwise_cons.mp apart).2 (fun g member => later g (by simp [member])) inner

theorem clipped_first (apart : Apart (f :: x)) (apart' : Apart y) (reaches : v ≤ f.2.stop)
    (later : ∀ g ∈ y, f.2.start ≤ g.2.start) (alike : openAt v (f :: x) = openAt v y) :
    clipped v (f :: x) = clipped v y := by
  by_cases early : f.2.start < v
  · obtain ⟨alone, covers⟩ := open_alone apart (Span.opensAt_iff.mpr ⟨early, reaches⟩)
    rw [covers, clipped_opened apart' later (alike.symm.trans alone)]
  · have far : ∀ g ∈ f :: x, v ≤ g.2.start := by
      intro g member
      rcases List.mem_cons.mp member with rfl | other
      · exact Nat.le_of_not_lt early
      · exact Nat.le_trans reaches ((List.pairwise_cons.mp apart).1 g other)
    have far' : ∀ g ∈ y, v ≤ g.2.start := fun g member =>
      Nat.le_trans (Nat.le_of_not_lt early) (later g member)
    rw [clipped_beyond far, clipped_beyond far']

-- Where two lists of finds part, it only matters what is open there.
theorem Parted.clipped_iff (parted : Parted v x y) (apart : Apart x) (apart' : Apart y) :
    clipped v x = clipped v y ↔ openAt v x = openAt v y := by
  constructor
  · intro same
    rw [← openAt_clipped, same, openAt_clipped]
  · intro alike
    induction parted with
    | beyond far far' => rw [clipped_beyond far, clipped_beyond far']
    | same f rest ih =>
      rw [openAt_cons, openAt_cons] at alike
      rw [clipped_cons, clipped_cons, ih (List.pairwise_cons.mp apart).2
        (List.pairwise_cons.mp apart').2 (List.append_cancel_left alike)]
    | first reaches later => exact clipped_first apart apart' reaches later alike
    | second reaches later => exact (clipped_first apart' apart reaches later alike.symm).symm

end Rules

theorem Scan.pairwise {walk : Cursor → Move Span} {c : Cursor} {spans : List Span}
    (strict : Strict walk) (scan : Scan walk c spans) :
    spans.Pairwise fun s t => s.stop ≤ t.start := by
  induction scan with
  | stay => exact .nil
  | skip nothing more rest ih => exact ih
  | jump found rest ih =>
    obtain ⟨leads, moved, finds⟩ := strict _ _ _ found
    rcases finds with rfl | rfl
    · exact ih
    · exact .cons (fun t member => (rest.within strict t member).1) ih

inductive Move.Parts (v : Nat) (R : Cursor → Cursor → Prop) (E : Span → Span → Prop) :
    Move Span → Move Span → Prop where
  | alike {m m' : Move Span} (same : Move.Alike R E m m') : Parts v R E m m'
  | first {d : Cursor} {s : Span} {m' : Move Span} (reaches : v ≤ s.stop) :
      Parts v R E (.jump d [s]) m'
  | second {d : Cursor} {s : Span} {m : Move Span} (reaches : v ≤ s.stop) :
      Parts v R E m (.jump d [s])

namespace Pattern.Frame

open Rules

variable {κ : Type} {f : Frame} {c c' : Cursor} {walk walk' : Cursor → Move Span} {l l' : List Span}
  {u z : Text}

def seam (f : Frame) : Nat := Text.size f.text + Text.size f.left

theorem near_offset (same : f.left = f.left') (stands : f.Stands u z c c') :
    c.offset = c'.offset := by
  rw [stands.offset, stands.offset', same]

theorem at_seam (stands : f.Stands u [] c c') : c.offset = f.seam := by
  have whole : f.text = u := by simpa using stands.whole
  rw [stands.offset, seam, whole]

theorem parted_behind (k : κ) {v : Nat} (strict : Scan.Strict walk) (strict' : Scan.Strict walk')
    (scan : Scan walk c l) (scan' : Scan walk' c' l') (far : v ≤ c.offset) (far' : v ≤ c'.offset) :
    Parted v (l.map (k, ·)) (l'.map (k, ·)) := by
  refine .beyond ?_ ?_
  · intro g member
    obtain ⟨s, held, rfl⟩ := List.mem_map.mp member
    exact Nat.le_trans far (scan.within strict s held).1
  · intro g member
    obtain ⟨s, held, rfl⟩ := List.mem_map.mp member
    exact Nat.le_trans far' (scan'.within strict' s held).1

theorem found_first {v : Nat} {d : Cursor} {s : Span} (k : κ) (strict : Scan.Strict walk)
    (strict' : Scan.Strict walk') (scan : Scan walk c l) (scan' : Scan walk' c' l')
    (jumps : walk c = .jump d [s]) (offsets : c.offset = c'.offset) (reaches : v ≤ s.stop) :
    Parted v (l.map (k, ·)) (l'.map (k, ·)) ∧ Parted v (l'.map (k, ·)) (l.map (k, ·)) := by
  obtain ⟨-, -, finds⟩ := strict _ _ _ jumps
  have start : s.start = c.offset := by
    rcases finds with nothing | found
    · cases nothing
    · cases found
      rfl
  have later : ∀ g ∈ l'.map (k, ·), s.start ≤ g.2.start := by
    intro g member
    obtain ⟨t, held, rfl⟩ := List.mem_map.mp member
    rw [start, offsets]
    exact (scan'.within strict' t held).1
  obtain ⟨rest, rfl, -⟩ := scan.jumped jumps
  exact ⟨.first reaches later, .second reaches later⟩

-- Two scans from one place of the common stretch find the same until one of them leaves it.
theorem scan_parted (k : κ) (same : f.left = f.left') (strict : Scan.Strict walk)
    (strict' : Scan.Strict walk')
    (moves : ∀ {u z c c'}, z ≠ [] → f.Stands u z c c' →
      Move.Parts f.seam f.Near f.Shifted (walk c) (walk' c'))
    (near : f.Near c c') (scan : Scan walk c l) (scan' : Scan walk' c' l') :
    Parted f.seam (l.map (k, ·)) (l'.map (k, ·)) := by
  induction scan generalizing c' l' with
  | stay nothing last =>
    obtain ⟨u, z, stands⟩ := near
    have spent : z = [] := by
      have rest := stands.rest
      rw [last] at rest
      exact (List.append_eq_nil_iff.mp rest.symm).1
    subst spent
    have far := at_seam stands
    have far' := near_offset same stands
    exact parted_behind k strict strict' (.stay nothing last) scan' (by omega) (by omega)
  | skip nothing more rest ih =>
    obtain ⟨u, z, stands⟩ := near
    have offsets := near_offset same stands
    have scan := Scan.skip nothing more rest
    cases z with
    | nil =>
      have far := at_seam stands
      exact parted_behind k strict strict' scan scan' (by omega) (by omega)
    | cons x z =>
      cases (Scan.next?_rest (stands.rest.trans List.cons_append)).symm.trans more
      have more' := Scan.next?_rest (stands.rest'.trans List.cons_append)
      have parts := moves (by simp) stands
      rw [nothing] at parts
      generalize here : walk' c' = move at parts
      cases parts with
      | alike alike =>
        cases alike
        exact ih ⟨_, _, stands.advance⟩ (scan'.skipped here more')
      | second reaches =>
        exact (found_first k strict' strict scan' scan here offsets.symm reaches).2
  | jump found rest ih =>
    obtain ⟨u, z, stands⟩ := near
    have offsets := near_offset same stands
    have scan := Scan.jump found rest
    cases z with
    | nil =>
      have far := at_seam stands
      exact parted_behind k strict strict' scan scan' (by omega) (by omega)
    | cons x z =>
      have parts := moves (by simp) stands
      rw [found] at parts
      generalize here : walk' c' = move at parts
      cases parts with
      | alike alike =>
        cases alike with
        | jump target finds =>
          cases shifted_same same finds
          obtain ⟨others, rfl, onward⟩ := scan'.jumped here
          have later := ih target onward
          obtain ⟨-, -, few⟩ := strict _ _ _ found
          rcases few with rfl | rfl
          · exact later
          · exact .same _ later
      | first reaches =>
        exact (found_first k strict strict' scan scan' found offsets reaches).1
      | second reaches =>
        exact (found_first k strict' strict scan' scan here offsets.symm reaches).2

end Pattern.Frame

namespace Rules.Finder

open Pattern (Frame Match)

variable {κ : Type} {f : Frame} {p q : Pattern} {c c' d : Cursor} {u z : Text} {m m' : Match}
  {escapable : Bool}

theorem stride_parts (same : f.left = f.left') (level : f.Level) (held : z ≠ [])
    (stands : f.Stands u z c c') :
    Move.Parts f.seam f.Near f.Shifted (p.stride c) (p.stride c') := by
  have whole := congrArg Text.size stands.whole
  have more := Text.size_pos held
  have place := stands.offset
  have place' := stands.offset'
  rw [Text.size_append] at whole
  have agrees := Frame.matchAt?_agrees level.edge (Pattern.each_any p.node) (.inl held) stands
  unfold Pattern.stride
  generalize here : p.matchAt? c = o at agrees
  generalize here' : p.matchAt? c' = o' at agrees
  cases agrees with
  | missed => exact .alike .on
  | met inside stops =>
    rename_i m m'
    have starts : f.Stands u z m.start m'.start := by
      rw [Pattern.matchAt?_start here, Pattern.matchAt?_start here']
      exact stands
    dsimp only
    rw [← Frame.isEmpty_agrees starts stops]
    split
    · exact .alike .on
    · refine .alike (.jump ⟨_, _, stops⟩ (.cons ⟨?_, ?_⟩ .nil))
      · simp only [Match.span, starts.offset, starts.offset']
        omega
      · simp only [Match.span, stops.offset, stops.offset']
        omega
  | strayed opened far =>
    rename_i m
    have moved : m.isEmpty = false := by
      rw [Match.isEmpty, Pattern.matchAt?_start here]
      simp only [beq_eq_false_iff_ne]
      omega
    dsimp only
    rw [moved]
    exact .first far
  | strayed' opened far =>
    rename_i m
    have moved : m.isEmpty = false := by
      rw [Match.isEmpty, Pattern.matchAt?_start here']
      simp only [beq_eq_false_iff_ne]
      omega
    dsimp only
    rw [moved]
    rw [← same] at far
    exact .second far

theorem afterBegin_whole (next : behindBegin? m = some d) (more : m.stop.rest ≠ [])
    (plain : (escapable && m.start.isEscaped) = false) :
    afterBegin q true escapable m =
      match closing? q escapable (d.rest.length + 1) d with
      | none => .jump d []
      | some stop => .jump stop [⟨m.start.offset, stop.offset⟩] := by
  have full : ¬ (m.isEmpty && (reachOf true m).1.isEmpty) = true := by
    simp [reachOf, more]
  have inside := inside_parts true next full
  have beyond : (reachOf true m).2 = [] := rfl
  rw [beyond, List.append_nil] at inside
  have place : d.withRest d.rest = d := Cursor.same_place rfl rfl
  unfold afterBegin
  rw [next]
  dsimp only
  rw [plain, if_neg (by simp), if_neg full, inside, beyond, place]
  cases closing? q escapable (d.rest.length + 1) d with
  | none => rfl
  | some stop =>
    dsimp only
    rw [List.append_nil]
    rfl

theorem afterBegin_parts (same : f.left = f.left') (level : f.Level) (fits : f.Fits q)
    {a b v w : Text} (starts : f.Stands a b m.start m'.start) (held : w ≠ [])
    (stops : f.Stands v w m.stop m'.stop) :
    Move.Parts f.seam f.Near f.Shifted (afterBegin q true escapable m)
      (afterBegin q true escapable m') := by
  have more : m.stop.rest ≠ [] := by simp [stops.rest, held]
  have more' : m'.stop.rest ≠ [] := by simp [stops.rest', held]
  have first := starts.offset
  have first' := starts.offset'
  rcases behindBegin?_agrees starts (.inl held) stops with ⟨last, last'⟩ | next
  · unfold afterBegin
    rw [last, last']
    exact .alike .on
  · obtain ⟨d, d', a', b', next, next', there⟩ := next
    cases escaped : (escapable && m.start.isEscaped) with
    | true =>
      have escaped' := escaped
      rw [level.escaped starts] at escaped'
      unfold afterBegin
      rw [next, next']
      dsimp only
      rw [escaped, escaped']
      exact .alike (.jump ⟨a', b', there⟩ .nil)
    | false =>
      have escaped' := escaped
      rw [level.escaped starts] at escaped'
      rw [afterBegin_whole next more escaped, afterBegin_whole next' more' escaped']
      rcases closing?_agrees fits level (Nat.lt_succ_self _) (Nat.lt_succ_self _) there with
        found | ⟨away, away'⟩
      · obtain ⟨stop, stop', v', w', closes, closes', -, ends⟩ := found
        have last := ends.offset
        have last' := ends.offset'
        rw [closes, closes']
        refine .alike (.jump ⟨v', w', ends⟩ (.cons ⟨?_, ?_⟩ .nil))
        · dsimp only
          omega
        · dsimp only
          omega
      · generalize closing? q escapable (d.rest.length + 1) d = o at away
        generalize closing? q escapable (d'.rest.length + 1) d' = o' at away'
        cases o with
        | some stop => exact .first (away stop rfl).2
        | none =>
          cases o' with
          | some stop =>
            have far := (away' stop rfl).2
            rw [← same] at far
            exact .second far
          | none => exact .alike (.jump ⟨a', b', there⟩ .nil)

theorem pairStride_parts (same : f.left = f.left') (level : f.Level) (ended : f.Ended)
    (kept : p.inLine = true) (closing : q.inLine = true) (held : z ≠ [])
    (stands : f.Stands u z c c') :
    Move.Parts f.seam f.Near f.Shifted (pairStride p q true escapable c)
      (pairStride p q true escapable c') := by
  have fits : f.Fits p := ⟨⟨_, Pattern.each_any p.node, level.edge⟩, .inr ⟨kept, ended⟩⟩
  have fits' : f.Fits q := ⟨⟨_, Pattern.each_any q.node, level.edge⟩, .inr ⟨closing, ended⟩⟩
  by_cases closed : f.Closed
  · exact .alike (pairStride_agrees (level.fits closed p) level (.inl closed) held stands)
  · have more : c.rest.isEmpty = false := by simp [stands.rest, held]
    have more' : c'.rest.isEmpty = false := by simp [stands.rest', held]
    unfold pairStride
    rw [more, more']
    rcases Frame.fits_matchAt? fits (.inl held) stands with ⟨here, here'⟩ | found
    · rw [here, here']
      exact .alike .on
    · obtain ⟨m, m', v, w, here, here', inside, stops⟩ := found
      have starts : f.Stands u z m.start m'.start := by
        rw [Pattern.matchAt?_start here, Pattern.matchAt?_start here']
        exact stands
      rw [here, here']
      exact afterBegin_parts same level fits' starts (inside.resolve_right closed) stops

def opensOnLine : Finder → Bool
  | .pattern _ _ => true
  | .beginEnd p q multiline _ => p.inLine && (!multiline || q.inLine)

theorem spans_apart (e : Finder) (k : κ) (w : Window) : Apart ((e.spans w).map (k, ·)) := by
  apply List.pairwise_map.mpr
  cases e with
  | pattern p spansLines =>
    rw [spans_pattern]
    apply List.pairwise_map.mpr
    apply ((Pattern.allMatches_scan w.body).pairwise (Pattern.stride_strict p)).imp
    intro s t before
    exact Nat.add_le_add_left before _
  | beginEnd p q multiline escapable =>
    exact (spans_beginEnd p q multiline escapable w).pairwise
      (pairStride_strict p q multiline escapable)

theorem spans_parted {e : Finder} {x y y' t : Text} {last : Char} (k : κ)
    (opens : e.opensOnLine = true) (front : x = t ++ [last]) (ends : Text.isTerminator last = true) :
    Parted (Text.size x) ((e.spans (.whole (x ++ y))).map (k, ·))
      ((e.spans (.whole (x ++ y'))).map (k, ·)) := by
  let f : Frame := ⟨x, [], y, [], y'⟩
  have level : f.Level := ⟨rfl, rfl⟩
  have ended : f.Ended := ⟨t, last, front, ends⟩
  have near : f.Near (.start (x ++ y)) (.start (x ++ y')) :=
    ⟨[], x, rfl, rfl, rfl, rfl, rfl⟩
  cases e with
  | pattern p spansLines =>
    have scan (t : Text) : Scan p.stride (.start t) ((pattern p spansLines).spans (.whole t)) := by
      rw [spans_whole]
      exact Pattern.allMatches_scan t
    exact Frame.scan_parted k rfl (Pattern.stride_strict p) (Pattern.stride_strict p)
      (fun held stands => stride_parts rfl level held stands) near (scan _) (scan _)
  | beginEnd p q multiline escapable =>
    obtain ⟨kept, closing⟩ := Bool.and_eq_true_iff.mp opens
    have scans (t : Text) := spans_beginEnd p q multiline escapable (.whole t)
    have moves : ∀ {u z c c'}, z ≠ [] → f.Stands u z c c' →
        Move.Parts f.seam f.Near f.Shifted (pairStride p q multiline escapable c)
          (pairStride p q multiline escapable c') := by
      intro u z c c' held stands
      cases multiline with
      | true => exact pairStride_parts rfl level ended kept (by simpa using closing) held stands
      | false =>
        have fits : f.Fits p := ⟨⟨_, Pattern.each_any p.node, level.edge⟩, .inr ⟨kept, ended⟩⟩
        exact .alike (pairStride_agrees fits level (.inr ⟨rfl, ended⟩) held stands)
    exact Frame.scan_parted k rfl (pairStride_strict p q multiline escapable)
      (pairStride_strict p q multiline escapable) moves near (scans _) (scans _)

end Rules.Finder

end LiveHighlight
