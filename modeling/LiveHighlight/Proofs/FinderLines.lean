import LiveHighlight.Proofs.Finding

-- A rule that keeps to lines finds in a text what it finds in either half, wherever the text is
-- cut behind a line terminator.

namespace LiveHighlight

namespace Pattern.Frame

variable {f : Frame} {c c' d e : Cursor} {step : Cursor → Move Span} {l l' k : List Span}

theorem near_next (nothing : f.right = []) (near : f.Near c c') (more : c.next? = some d) :
    ∃ d', c'.next? = some d' ∧ f.Near d d' := by
  obtain ⟨u, z, stands⟩ := near
  cases z with
  | nil =>
    have last : c.rest = [] := by rw [stands.rest, nothing, List.nil_append]
    simp [Scan.next?_last last] at more
  | cons x z =>
    cases (Scan.next?_rest (stands.rest.trans List.cons_append)).symm.trans more
    exact ⟨_, Scan.next?_rest (stands.rest'.trans List.cons_append), _, _, stands.advance⟩

theorem near_last (nothing : f.right = []) (near : f.Near c c') (last : c.rest = []) :
    c'.before = f.text.reverse ++ f.left' ∧ c'.rest = f.right' := by
  obtain ⟨u, z, stands⟩ := near
  have spent : z = [] := by
    have rest := stands.rest
    rw [last, nothing, List.append_nil] at rest
    exact rest.symm
  subst spent
  have whole : f.text = u := by simpa using stands.whole
  exact ⟨by rw [whole]; exact stands.before', by simpa using stands.rest'⟩

theorem shifted_same (same : f.left = f.left') (all : List.Forall₂ f.Shifted l l') : l = l' := by
  induction all with
  | nil => rfl
  | cons first others ih =>
    obtain ⟨starts, stops⟩ := first
    rw [same] at starts stops
    rw [ih]
    congr 1
    rename_i s s' _ _
    obtain ⟨start, stop⟩ := s
    obtain ⟨start', stop'⟩ := s'
    rw [Span.mk.injEq]
    dsimp only at starts stops
    omega

theorem scan_onto {α β : Type} {step : Cursor → Move α} {step' : Cursor → Move β}
    {E : α → β → Prop} {l : List α} {k : List β} (nothing : f.right = [])
    (quiet : ∀ c, c.rest = [] → step c = .on)
    (agrees : ∀ {u z c c'}, z ≠ [] → f.Stands u z c c' →
      Move.Alike f.Near E (step c) (step' c'))
    (tail : ∀ e, e.before = f.text.reverse ++ f.left' → e.rest = f.right' → Scan step' e k)
    (near : f.Near c c') (scan : Scan step c l) :
    ∃ l', List.Forall₂ E l l' ∧ Scan step' c' (l' ++ k) := by
  have moves : ∀ c c', f.Near c c' → c.rest ≠ [] → Move.Alike f.Near E (step c) (step' c') := by
    intro c c' near held
    obtain ⟨u, z, stands⟩ := near
    apply agrees _ stands
    intro spent
    apply held
    rw [stands.rest, nothing, spent, List.append_nil]
  have ends : ∀ c c', f.Near c c' → c.rest = [] → step c = .on ∧ Scan step' c' k := by
    intro c c' near last
    obtain ⟨before, rest⟩ := near_last nothing near last
    exact ⟨quiet c last, tail c' before rest⟩
  exact Scan.carry moves (fun c c' d near more => near_next nothing near more) ends scan near

theorem scan_moved {α : Type} {step step' : Cursor → Move α} {E : α → α → Prop} {l : List α}
    (closed : f.Closed) (quiet : ∀ c, c.rest = [] → step c = .on)
    (quiet' : ∀ c, c.rest = [] → step' c = .on)
    (agrees : ∀ {u z c c'}, z ≠ [] → f.Stands u z c c' →
      Move.Alike f.Near E (step c) (step' c'))
    (near : f.Near c c') (scan : Scan step c l) :
    ∃ l', List.Forall₂ E l l' ∧ Scan step' c' l' := by
  have tail : ∀ e, e.before = f.text.reverse ++ f.left' → e.rest = f.right' →
      Scan step' e [] := by
    intro e _ rest
    rw [closed.2] at rest
    exact .stay (quiet' e rest) rest
  obtain ⟨l', all, moved⟩ := scan_onto closed.1 quiet agrees tail near scan
  exact ⟨l', all, by simpa using moved⟩

theorem shifted_map {n : Nat} (grown : Text.size f.left' = n + Text.size f.left)
    (all : List.Forall₂ f.Shifted l l') : l' = l.map fun s => s.shift n := by
  induction all with
  | nil => rfl
  | cons first others ih =>
    obtain ⟨starts, stops⟩ := first
    rw [grown] at starts stops
    rw [List.map_cons, ih]
    congr 1
    rename_i s s' _ _
    obtain ⟨start, stop⟩ := s'
    dsimp only at starts stops
    rw [Span.shift, Span.mk.injEq]
    omega

end Pattern.Frame

namespace Window

def front (w : Window) (x y : Text) : Window := ⟨w.start.withRest x, y ++ w.behind⟩

def back (w : Window) (x y : Text) : Window := ⟨w.start.past x y, w.behind⟩

def seam (w : Window) (x y : Text) : Pattern.Frame :=
  ⟨x, w.start.before, [], w.start.before, y⟩

theorem seam_near {x y : Text} (w : Window) (body : w.body = x ++ y) :
    (w.seam x y).Near (w.front x y).start w.start :=
  ⟨[], x, rfl, rfl, (List.append_nil _).symm, rfl, body⟩

theorem seam_level {x y : Text} (w : Window) : (w.seam x y).Level := ⟨rfl, rfl⟩

end Window

-- Conditions that do not tell the start of a text from the start of a line.
def Pattern.Look.floats (l : Look) : Bool := l != .textStart && l != .feedStart

def Pattern.floats (p : Pattern) : Bool := p.node.each (fun _ => true) Pattern.Look.floats

namespace Pattern

variable {p : Pattern} {c c' : Cursor} {x y t : Text} {last : Char} {k : List Span}

theorem terminator_noWord (ends : Text.isTerminator last = true) :
    isWordAt (some last) = false ∧ isAsciiWordAt (some last) = false := by
  simp only [Text.isTerminator, Bool.or_eq_true, beq_iff_eq] at ends
  rcases ends with rfl | rfl
  · decide
  · decide

theorem floats_edge (ends : Text.isTerminator last = true) (apart : y.head? ≠ some '\n') :
    Frame.EdgeAgrees ⟨y, [], [], last :: t, []⟩ Look.floats := by
  intro l c c' floats stands inside
  have before : c.before.head? = none := by rw [stands.before]; rfl
  have before' : c'.before.head? = some last := by rw [stands.before']; rfl
  have rest : c.rest = y := by rw [stands.rest, List.append_nil]
  have rest' : c'.rest = y := by rw [stands.rest', List.append_nil]
  obtain ⟨noWord, noAsciiWord⟩ := terminator_noWord ends
  have none : isWordAt none = false ∧ isAsciiWordAt none = false := ⟨rfl, rfl⟩
  have start : LineIndex.startsBetween (some last) y.head? = true := by
    simp only [Text.isTerminator, Bool.or_eq_true, beq_iff_eq] at ends
    rcases ends with rfl | rfl
    · rfl
    · simpa [LineIndex.startsBetween] using apart
  cases l <;>
    simp only [Look.holds, Cursor.isLineStart, Cursor.isLineEnd, before, before', rest, rest',
      noWord, noAsciiWord, none, start]
  case lineStart => rfl
  case textStart => cases floats
  case feedStart => cases floats
  case lineEnd =>
    cases y with
    | nil => rfl
    | cons x y =>
      simp only [List.head?_cons] at apart ⊢
      split <;> simp_all

theorem stride_terminator (kept : p.inLine = true) (head : c.rest = last :: t)
    (ends : Text.isTerminator last = true) : p.stride c = .on := by
  unfold stride
  split
  · rename_i m here
    split
    · rfl
    · rename_i moved
      exfalso
      obtain ⟨u, taken, rest, -⟩ := matchAt?_leads CharSet.inLine_takes kept here
      have start := matchAt?_start here
      subst start
      have fewer := shorter_of_moved here (Bool.eq_false_iff.mpr moved)
      rw [head] at rest
      cases u with
      | nil =>
        rw [head, rest] at fewer
        exact Nat.lt_irrefl _ fewer
      | cons x u =>
        have first : last = x := (List.cons.inj rest).1
        have within : Text.isTerminator x = false := taken x (by simp)
        rw [← first, ends] at within
        cases within
  · rfl

-- What a pattern finds from the start of a line on it also finds behind the lines before.
theorem stride_behind (kept : p.inLine = true) (floats : p.floats = true)
    (ends : Text.isTerminator last = true) (before : c.before = last :: t) (rest : c.rest = y)
    (scan : Scan p.stride (.start y) k) :
    Scan p.stride c (k.map fun s => s.shift (Text.size (last :: t))) := by
  by_cases apart : y.head? = some '\n'
  · -- between the two characters of one terminator: the first place has nothing on either side
    obtain ⟨y, rfl⟩ := List.head?_eq_some_iff.mp apart
    have scan' : Scan p.stride ((Cursor.start ('\n' :: y)).advance '\n' y) k := by
      cases scan with
      | stay _ last => cases last
      | skip nothing more rest =>
        cases more
        exact rest
      | jump found =>
        have blank := stride_terminator (c := .start ('\n' :: y)) kept rfl rfl
        rw [blank] at found
        cases found
    let f : Frame := ⟨y, ['\n'], [], '\n' :: last :: t, []⟩
    have closed : f.Closed := ⟨rfl, rfl⟩
    have level : f.Level := ⟨rfl, rfl⟩
    have near : f.Near ((Cursor.start ('\n' :: y)).advance '\n' y) (c.advance '\n' y) := by
      refine ⟨[], y, rfl, rfl, (List.append_nil _).symm, ?_, (List.append_nil _).symm⟩
      simp [Cursor.advance, before, f]
    obtain ⟨l', all, moved⟩ := Frame.scan_moved closed (fun _ => stride_last p)
      (fun _ => stride_last p)
      (fun held stands => Rules.Finder.stride_agrees (level.fits closed p) (.inl held) stands)
      near scan'
    have grown : Text.size f.left' = Text.size (last :: t) + Text.size f.left := by
      simp only [f, Text.size_cons, Text.size_nil]
      omega
    rw [Frame.shifted_map grown all] at moved
    exact .skip (stride_terminator kept rest rfl) (Scan.next?_rest rest) moved
  · let f : Frame := ⟨y, [], [], last :: t, []⟩
    have closed : f.Closed := ⟨rfl, rfl⟩
    have fits : f.Fits p := ⟨⟨_, floats, floats_edge ends apart⟩, .inl closed⟩
    have near : f.Near (.start y) c :=
      ⟨[], y, rfl, rfl, (List.append_nil _).symm, before, rest.trans (List.append_nil _).symm⟩
    obtain ⟨l', all, moved⟩ := Frame.scan_moved closed (fun _ => stride_last p)
      (fun _ => stride_last p)
      (fun held stands => Rules.Finder.stride_agrees fits (.inl held) stands) near scan
    rw [Frame.shifted_map (n := Text.size (last :: t)) rfl all] at moved
    exact moved

end Pattern

namespace Rules.Finder

open Pattern (Frame strides)

variable {p q : Pattern} {e : Finder} {w : Window} {x y t : Text} {last : Char}

-- The end of a region is only searched for on the line of its begin match.
def keepsToLine : Finder → Bool
  | .pattern p _ => p.inLine && p.floats
  | .beginEnd p _ _ _ => p.inLine

theorem spans_pattern (p : Pattern) (spansLines : Bool) (w : Window) :
    (pattern p spansLines).spans w =
      (strides (p.allMatches w.body)).map fun s => s.shift w.start.offset := by
  simp only [spans, strides, List.filter_map, List.map_map]
  congr 2
  funext m
  simp [Span.isEmpty, Span.shift]

theorem spans_whole (p : Pattern) (spansLines : Bool) (t : Text) :
    (pattern p spansLines).spans (.whole t) = strides (p.allMatches t) := by
  have still : ∀ s : Span, s.shift 0 = s := fun s => by simp [Span.shift]
  rw [spans_pattern]
  change (strides (p.allMatches t)).map (fun s => s.shift 0) = _
  rw [List.map_congr_left fun s _ => still s, List.map_id']

theorem spans_beginEnd (p q : Pattern) (multiline escapable : Bool) (w : Window) :
    Scan (pairStride p q multiline escapable) w.start
      ((beginEnd p q multiline escapable).spans w) :=
  beginEnd_scan (w.body.length + 1) w.start (Nat.lt_succ_self _)

theorem pattern_cut (kept : p.inLine = true) (floats : p.floats = true) (front : x = t ++ [last])
    (ends : Text.isTerminator last = true) :
    strides (p.allMatches (x ++ y)) =
      strides (p.allMatches x) ++ (strides (p.allMatches y)).map fun s => s.shift (Text.size x) := by
  let f : Frame := ⟨x, [], [], [], y⟩
  have level : f.Level := ⟨rfl, rfl⟩
  have fits : f.Fits p := ⟨⟨_, Pattern.each_any _, level.edge⟩, .inr ⟨kept, t, last, front, ends⟩⟩
  have near : f.Near (.start x) (.start (x ++ y)) :=
    ⟨[], x, rfl, rfl, (List.append_nil _).symm, rfl, rfl⟩
  have at_seam : ((Cursor.start (x ++ y)).past x y).before = last :: t.reverse := by
    simp [Cursor.past, Cursor.start, front]
  have tail := Pattern.stride_behind kept floats ends at_seam rfl (Pattern.allMatches_scan y)
  have size : Text.size (last :: t.reverse) = Text.size x := by
    simp only [front, Text.size_cons, Text.size_reverse, Text.size_append, Text.size_nil]
    omega
  rw [size] at tail
  have behind : ∀ e : Cursor, e.before = x.reverse ++ [] → e.rest = y → Scan p.stride e
      ((strides (p.allMatches y)).map fun s => s.shift (Text.size x)) := by
    intro e before rest
    have place : e = (Cursor.start (x ++ y)).past x y := Cursor.same_place before rest
    rw [place]
    exact tail
  obtain ⟨l', all, whole⟩ := Frame.scan_onto rfl (fun _ => Pattern.stride_last p)
    (fun held stands => stride_agrees fits (.inl held) stands) behind near
    (Pattern.allMatches_scan x)
  rw [← Frame.shifted_same rfl all] at whole
  exact (Pattern.allMatches_scan (x ++ y)).unique whole

theorem beginEnd_cut {escapable : Bool} (kept : p.inLine = true) (body : w.body = x ++ y)
    (front : x = t ++ [last]) (ends : Text.isTerminator last = true) :
    (beginEnd p q false escapable).spans w =
      (beginEnd p q false escapable).spans (w.front x y) ++
        (beginEnd p q false escapable).spans (w.back x y) := by
  have level := w.seam_level (x := x) (y := y)
  have ended : (w.seam x y).Ended := ⟨t, last, front, ends⟩
  have fits : (w.seam x y).Fits p :=
    ⟨⟨_, Pattern.each_any _, level.edge⟩, .inr ⟨kept, ended⟩⟩
  have behind : ∀ e : Cursor, e.before = x.reverse ++ w.start.before → e.rest = y →
      Scan (pairStride p q false escapable) e
        ((beginEnd p q false escapable).spans (w.back x y)) := by
    intro e before rest
    have place : e = (w.back x y).start := Cursor.same_place before rest
    rw [place]
    exact spans_beginEnd p q false escapable (w.back x y)
  obtain ⟨l', all, whole⟩ := Frame.scan_onto rfl (fun _ => pairStride_last)
    (fun held stands => pairStride_agrees fits level (.inr ⟨rfl, ended⟩) held stands) behind
    (w.seam_near body) (spans_beginEnd p q false escapable (w.front x y))
  rw [← Frame.shifted_same rfl all] at whole
  exact (spans_beginEnd p q false escapable w).unique whole

theorem spans_cut (kept : e.keepsToLine = true) (single : e.spansLines = false)
    (body : w.body = x ++ y) (front : x = t ++ [last]) (ends : Text.isTerminator last = true) :
    e.spans w = e.spans (w.front x y) ++ e.spans (w.back x y) := by
  cases e with
  | pattern p spansLines =>
    obtain ⟨inLine, floats⟩ := Bool.and_eq_true_iff.mp kept
    rw [spans_pattern, spans_pattern, spans_pattern, body, pattern_cut inLine floats front ends,
      List.map_append, List.map_map]
    congr 1
    apply List.map_congr_left
    intro s member
    simp only [Function.comp, Span.shift, Window.back, Cursor.past, Span.mk.injEq]
    omega
  | beginEnd p q multiline escapable =>
    have same : multiline = false := single
    subst same
    exact beginEnd_cut kept body front ends

theorem spans_within (e : Finder) (w : Window) :
    ∀ s ∈ e.spans w, w.span.start ≤ s.start ∧ s.start < s.stop ∧ s.stop ≤ w.span.stop := by
  cases e with
  | pattern p spansLines =>
    rw [spans_pattern]
    intro s member
    obtain ⟨found, held, rfl⟩ := List.mem_map.mp member
    have inside := (Pattern.allMatches_scan w.body).within (Pattern.stride_strict p) found held
    simp only [Cursor.start, Span.shift, Window.span] at inside ⊢
    omega
  | beginEnd p q multiline escapable =>
    exact (spans_beginEnd p q multiline escapable w).within (pairStride_strict p q multiline escapable)

end Rules.Finder

end LiveHighlight
