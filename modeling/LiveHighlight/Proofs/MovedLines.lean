import LiveHighlight.Proofs.Regions

-- The same lines in two texts. What is found in them is the same, each time counted from where
-- the lines stand.

namespace LiveHighlight

open Pattern (Frame)

namespace Window

variable {w w' : Window}

-- Two stretches of one text each. What follows may differ where the stretch ends its line.
structure Alike (w w' : Window) : Prop where
  body : w.body = w'.body
  head : w.start.before.head? = w'.start.before.head?
  slashes : (w.start.before.takeWhile (· == '\\')).length =
    (w'.start.before.takeWhile (· == '\\')).length
  behind : w.behind = w'.behind ∨
    ∃ t last, w.body = t ++ [last] ∧ Text.isTerminator last = true

def shared (w w' : Window) : Frame := ⟨w.body, w.start.before, [], w'.start.before, []⟩

theorem shared_closed (w w' : Window) : (w.shared w').Closed := ⟨rfl, rfl⟩

theorem Alike.level (alike : w.Alike w') : (w.shared w').Level := ⟨alike.head, alike.slashes⟩

theorem Alike.stands (alike : w.Alike w') : (w.shared w').Stands [] w.body w.start w'.start :=
  ⟨rfl, rfl, (List.append_nil _).symm, rfl, alike.body.symm.trans (List.append_nil _).symm⟩

theorem Alike.near (alike : w.Alike w') : (w.shared w').Near w.start w'.start :=
  ⟨_, _, alike.stands⟩

theorem Alike.stop (alike : w.Alike w') :
    w.span.stop + Text.size (w.shared w').left' = w'.span.stop + Text.size (w.shared w').left := by
  simp only [span, shared, w.start.offset_eq, w'.start.offset_eq, ← alike.body]
  omega

end Window

namespace Rules.Finder

variable {w w' : Window}

theorem spans_moved (e : Finder) (alike : w.Alike w') :
    List.Forall₂ (w.shared w').Shifted (e.spans w) (e.spans w') := by
  cases e with
  | pattern p spansLines =>
    rw [spans_pattern, spans_pattern, ← alike.body]
    apply List.forall₂_map_left_iff.mpr
    apply List.forall₂_map_right_iff.mpr
    apply List.forall₂_same.mpr
    intro s _
    simp only [Frame.Shifted, Span.shift, Window.shared, w.start.offset_eq, w'.start.offset_eq]
    omega
  | beginEnd p q multiline escapable =>
    have closed := w.shared_closed w'
    obtain ⟨l', all, moved⟩ := Frame.scan_moved closed (fun _ => pairStride_last)
      (fun _ => pairStride_last)
      (fun held stands => pairStride_agrees (alike.level.fits closed p) alike.level (.inl closed)
        held stands)
      alike.near (spans_beginEnd p q multiline escapable w)
    rw [(spans_beginEnd p q multiline escapable w').unique moved]
    exact all

end Rules.Finder

namespace Rules.Occurrence

variable {w w' : Window} {needle : Text}

theorem all_moved (alike : w.Alike w') (held : needle ≠ []) (kept : needle.endsLine = true) :
    List.Forall₂ (w.shared w').Twins (all w needle) (all w' needle) := by
  have closed := w.shared_closed w'
  obtain ⟨l', twins, moved⟩ := Frame.scan_moved closed (fun _ => find_last (here?_ahead held))
    (fun _ => find_last (here?_ahead held))
    (fun more stands => Frame.find_alike (Frame.here?_alike (.inl closed) kept (.inl more) stands))
    alike.near (all_scan w held)
  rw [(all_scan w' held).unique moved]
  exact twins

theorem leading_moved (alike : w.Alike w') (held : needle ≠ []) (kept : needle.endsLine = true) :
    List.Forall₂ (w.shared w').Twins (leading w needle) (leading w' needle) := by
  have closed := w.shared_closed w'
  obtain ⟨l', twins, moved⟩ := Frame.scan_moved closed
    (fun _ => find_last (leadingAt?_ahead w held)) (fun _ => find_last (leadingAt?_ahead w' held))
    (fun more stands => Frame.find_alike (Frame.leadingAt?_alike (.inl closed) alike.level kept
      alike.stands (.inl more) stands))
    alike.near (leading_scan w held)
  rw [(leading_scan w' held).unique moved]
  exact twins

end Rules.Occurrence

namespace Pattern.Frame

open Rules

variable {f : Frame} {w w' : Window} {o o' : Occurrence} {m m' : Mark}

-- Marks that a sweep treats alike: only of an opening one it matters where its line ends.
structure Kin (f : Frame) (m m' : Mark) : Prop where
  delimiter : m.delimiter = m'.delimiter
  role : m.role = m'.role
  span : f.Shifted m.span m'.span
  content : m.role.opens = true →
    m.contentStop + Text.size f.left' = m'.contentStop + Text.size f.left

theorem ofOccurrence_kin (index : Nat) (role : Role) (twins : f.Twins o o')
    (content : role.opens = true → w.lineContentStop o.stop + Text.size f.left' =
      w'.lineContentStop o'.stop + Text.size f.left) :
    f.Kin (.ofOccurrence w index role o) (.ofOccurrence w' index role o') := by
  obtain ⟨⟨u, z, starts⟩, ⟨v, b, stops⟩⟩ := twins
  have first := starts.offset
  have first' := starts.offset'
  have last := stops.offset
  have last' := stops.offset'
  refine ⟨rfl, rfl, ⟨?_, ?_⟩, content⟩
  · simp only [Mark.ofOccurrence, Occurrence.span]
    omega
  · simp only [Mark.ofOccurrence, Occurrence.span]
    omega

end Pattern.Frame

namespace Rules.Mark

open Occurrence (Of)

variable {w w' : Window} {needle : Text} {o o' : Occurrence} {d : Delimiter} {l : Delimiters}

theorem content_moved (alike : w.Alike w') (found : Of w needle o) (held : needle ≠ [])
    (kept : needle.inLine = true) (twins : (w.shared w').Twins o o') :
    w.lineContentStop o.stop + Text.size (w.shared w').left' =
      w'.lineContentStop o'.stop + Text.size (w.shared w').left := by
  obtain ⟨-, v, b, stops⟩ := twins
  have rest : o.stop.rest = b := stops.rest.trans (List.append_nil _)
  have rest' : o'.stop.rest = b := stops.rest'.trans (List.append_nil _)
  have content : (Text.lineContent (o.stop.rest ++ w.behind)).1 =
      (Text.lineContent (o'.stop.rest ++ w'.behind)).1 := by
    rcases alike.behind with same | ⟨t, last, body, ends⟩
    · rw [rest, rest', same]
    · have ended := terminated found held kept body ends
      rw [rest] at ended ⊢
      rw [rest', Text.lineContent_append ended, Text.lineContent_append ended]
  have first := stops.offset
  have second := stops.offset'
  simp only [Window.lineContentStop, content]
  omega

theorem openings_moved (index : Nat) (role : Role) (alike : w.Alike w') (held : needle ≠ [])
    (kept : needle.inLine = true) :
    List.Forall₂ (w.shared w').Kin (unescaped w index role (Occurrence.all w needle))
      (unescaped w' index role (Occurrence.all w' needle)) := by
  have twins := Occurrence.all_moved alike held (Text.inLine_endsLine kept)
  have found : ∀ o ∈ Occurrence.all w needle, Of w needle o := fun _ => Occurrence.of_all held
  apply Frame.unescaped_related index role alike.level And.right _
    ((List.forall₂_and_left _ _).mpr ⟨found, twins⟩)
  intro o o' both
  exact Frame.ofOccurrence_kin index role both.2 fun _ =>
    content_moved alike both.1 held kept both.2

theorem closings_moved (index : Nat) (alike : w.Alike w') (held : needle ≠ [])
    (kept : needle.endsLine = true) :
    List.Forall₂ (w.shared w').Kin (unescaped w index .closing (Occurrence.all w needle))
      (unescaped w' index .closing (Occurrence.all w' needle)) := by
  apply Frame.unescaped_related index .closing alike.level id _
    (Occurrence.all_moved alike held kept)
  intro o o' twins
  exact Frame.ofOccurrence_kin index .closing twins fun opens => by cases opens

theorem inlines_moved (index : Nat) {opening : Text} {leading : Bool} (alike : w.Alike w')
    (held : opening ≠ []) (kept : opening.inLine = true) :
    List.Forall₂ (w.shared w').Kin (ofDelimiter w index (.inline opening leading))
      (ofDelimiter w' index (.inline opening leading)) := by
  have all : List.Forall₂ (fun o o' => Of w opening o ∧ (w.shared w').Twins o o')
      (if leading then Occurrence.leading w opening else Occurrence.all w opening)
      (if leading then Occurrence.leading w' opening else Occurrence.all w' opening) := by
    have ended := Text.inLine_endsLine kept
    cases leading with
    | true =>
      exact (List.forall₂_and_left _ _).mpr ⟨fun _ => Occurrence.of_leading held,
        Occurrence.leading_moved alike held ended⟩
    | false =>
      exact (List.forall₂_and_left _ _).mpr ⟨fun _ => Occurrence.of_all held,
        Occurrence.all_moved alike held ended⟩
  apply Frame.inlines_related index alike.level And.right _ all
  intro o o' both
  have content := content_moved alike both.1 held kept both.2
  exact ⟨Frame.ofOccurrence_kin index .opening both.2 fun _ => content,
    rfl, rfl, ⟨content, content⟩, fun opens => by cases opens⟩

theorem ofDelimiter_moved (index : Nat) (alike : w.Alike w') (full : d.Full)
    (kept : d.keepsToLine = true) :
    List.Forall₂ (w.shared w').Kin (ofDelimiter w index d) (ofDelimiter w' index d) := by
  cases d with
  | inline opening leading => exact inlines_moved index alike full kept
  | pair opening closing multiline =>
    obtain ⟨inLine, endsLine⟩ := Bool.and_eq_true_iff.mp kept
    simp only [ofDelimiter]
    split
    · exact openings_moved index .both alike full.1 inLine
    · exact List.rel_append (openings_moved index .opening alike full.1 inLine)
        (closings_moved index alike full.2 endsLine)

theorem ofDelimiters_moved (index : Nat) (alike : w.Alike w') (full : ∀ e ∈ l, e.1.Full)
    (kept : ∀ e ∈ l, e.1.keepsToLine = true) :
    List.Forall₂ (w.shared w').Kin (ofDelimiters w index l) (ofDelimiters w' index l) := by
  induction l generalizing index with
  | nil => exact .nil
  | cons e rest ih =>
    exact List.rel_append
      (ofDelimiter_moved index alike (full e (by simp)) (kept e (by simp)))
      (ih (index + 1) (fun e member => full e (by simp [member]))
        fun e member => kept e (by simp [member]))

end Rules.Mark

namespace Order

variable {α β : Type} {le : α → α → Bool} {le' : β → β → Bool} {R : α → β → Prop}
  {l : List α} {l' : List β}

theorem place_related (alike : ∀ {a b a' b'}, R a a' → R b b' → le a b = le' a' b') {a : α} {a' : β}
    (first : R a a') (others : List.Forall₂ R l l') :
    List.Forall₂ R (place le a l) (place le' a' l') := by
  induction others with
  | nil => exact .cons first .nil
  | cons next others ih =>
    simp only [place, alike first next]
    split
    · exact .cons first (.cons next others)
    · exact .cons next ih

theorem sort_related (alike : ∀ {a b a' b'}, R a a' → R b b' → le a b = le' a' b')
    (all : List.Forall₂ R l l') : List.Forall₂ R (sort le l) (sort le' l') := by
  induction all with
  | nil => exact .nil
  | cons first others ih => exact place_related (R := R) alike first ih

end Order

namespace Rules.Mark

variable {f : Frame} {w w' : Window} {l : Delimiters} {m m' n n' : Mark}

theorem kin_le (first : f.Kin m m') (second : f.Kin n n') : le m n = le m' n' := by
  obtain ⟨start, stop⟩ := first.span
  obtain ⟨start', stop'⟩ := second.span
  have length : m.span.length = m'.span.length := by
    unfold Span.length
    omega
  have length' : n.span.length = n'.span.length := by
    unfold Span.length
    omega
  rw [Bool.eq_iff_iff]
  simp only [le, length, length', Bool.or_eq_true, Bool.and_eq_true, decide_eq_true_eq, beq_iff_eq]
  omega

theorem sorted_moved (alike : w.Alike w') (full : ∀ e ∈ l, e.1.Full)
    (kept : ∀ e ∈ l, e.1.keepsToLine = true) :
    List.Forall₂ (w.shared w').Kin (sorted w l) (sorted w' l) :=
  Order.sort_related kin_le (ofDelimiters_moved 0 alike full kept)

end Rules.Mark

namespace Rules.Mark

variable {f : Frame} {index limit limit' depth : Nat} {a a' b b' : List Mark} {m m' : Mark}

inductive Closes (f : Frame) (first : Nat) (b b' : List Mark) :
    Option (Nat × Mark) → Option (Nat × Mark) → Prop where
  | met {n : Nat} {c c' : Mark} (near : n < first) (kin : f.Kin c c') :
      Closes f first b b' (some (n, c)) (some (n, c'))
  | apart {o o' : Option (Nat × Mark)} (far : ∀ r, o = some r → r.2 ∈ b)
      (far' : ∀ r, o' = some r → r.2 ∈ b') : Closes f first b b' o o'

theorem Closes.later {first : Nat} {o o' : Option (Nat × Mark)} (closes : Closes f first b b' o o') :
    Closes f (first + 1) b b' (o.map fun r => (r.1 + 1, r.2))
      (o'.map fun r => (r.1 + 1, r.2)) := by
  cases closes with
  | met near kin => exact .met (Nat.succ_lt_succ near) kin
  | apart far far' =>
    refine .apart ?_ ?_
    · intro r found
      obtain ⟨inner, held, rfl⟩ := Option.map_eq_some_iff.mp found
      exact far inner held
    · intro r found
      obtain ⟨inner, held, rfl⟩ := Option.map_eq_some_iff.mp found
      exact far' inner held

def Limits (f : Frame) (limit limit' : Nat) (a a' : List Mark) : Prop :=
  limit + Text.size f.left' = limit' + Text.size f.left ∨
    ((∀ m ∈ a, m.span.start ≤ limit) ∧ ∀ m ∈ a', m.span.start ≤ limit')

theorem Limits.tail (limits : Limits f limit limit' (m :: a) (m' :: a')) :
    Limits f limit limit' a a' :=
  limits.imp_right fun ⟨near, near'⟩ =>
    ⟨fun m member => near m (by simp [member]), fun m member => near' m (by simp [member])⟩

theorem Limits.head (limits : Limits f limit limit' (m :: a) (m' :: a')) (kin : f.Kin m m') :
    limit < m.span.start ↔ limit' < m'.span.start := by
  have start := kin.span.1
  rcases limits with same | ⟨near, near'⟩
  · omega
  · have first := near m (by simp)
    have second := near' m' (by simp)
    omega

theorem close?_kin (kin : List.Forall₂ f.Kin a a') (limits : Limits f limit limit' a a') :
    Closes f a.length b b' (close? index limit depth (a ++ b))
      (close? index limit' depth (a' ++ b')) := by
  induction kin generalizing depth with
  | nil => exact .apart (fun r found => (close?_found found).1) fun r found => (close?_found found).1
  | cons first others ih =>
    rename_i m m' a a'
    have later (d : Nat) : Closes f (a.length + 1) b b'
        ((close? index limit d (a ++ b)).map fun r => (r.1 + 1, r.2))
        ((close? index limit' d (a' ++ b')).map fun r => (r.1 + 1, r.2)) := (ih limits.tail).later
    have closes : m.role.closes = m'.role.closes := by rw [first.role]
    simp only [List.cons_append, close?, first.delimiter, limits.head first, closes]
    split
    · exact later depth
    · split
      · exact .apart (fun r found => by cases found) fun r found => by cases found
      · split
        · cases depth with
          | zero => exact .met (Nat.succ_pos _) first
          | succ outer => exact later outer
        · exact later (depth + 1)

end Rules.Mark

def Pattern.Frame.Same {κ : Type} (f : Frame) (r r' : κ × Span) : Prop :=
  r.1 = r'.1 ∧ f.Shifted r.2 r'.2

namespace Rules.Delimiters

variable {f : Frame} {l : Delimiters} {w w' : Window} {m m' : Mark} {marks marks' : List Mark}
  {passing seek seek' : Nat}

theorem reach_kin (kin : f.Kin m m') (opens : m.role.opens = true)
    (stop : w.span.stop + Text.size f.left' = w'.span.stop + Text.size f.left) :
    reach l w m + Text.size f.left' = reach l w' m' + Text.size f.left := by
  have content := kin.content opens
  unfold reach
  rw [kin.delimiter]
  split
  · split
    · exact stop
    · omega
  · exact stop

theorem regionsFrom_moved (kin : List.Forall₂ f.Kin marks marks')
    (stop : w.span.stop + Text.size f.left' = w'.span.stop + Text.size f.left)
    (seeks : seek + Text.size f.left' = seek' + Text.size f.left) :
    List.Forall₂ f.Same (regionsFrom l w passing seek marks)
      (regionsFrom l w' passing seek' marks') := by
  induction kin generalizing passing seek seek' with
  | nil => exact .nil
  | cons first others ih =>
    rename_i m m' a a'
    cases passing with
    | succ left => exact ih seeks
    | zero =>
      have start := first.span.1
      rcases idle_or_opens m seek with idle | ⟨opens, late⟩
      · have idle' : m'.role.opens = false ∨ m'.span.start < seek' := by
          rw [← first.role]
          exact idle.imp_right fun early => by omega
        rw [regionsFrom_idle idle, regionsFrom_idle idle']
        exact ih seeks
      · have late' : seek' ≤ m'.span.start := by omega
        have limits : Mark.Limits f (reach l w m) (reach l w' m') a a' :=
          .inl (reach_kin first opens stop)
        have closes : Mark.Closes f a.length [] []
            (Mark.close? m.delimiter (reach l w m) 0 (a ++ []))
            (Mark.close? m.delimiter (reach l w' m') 0 (a' ++ [])) :=
          Mark.close?_kin others limits
        rw [List.append_nil, List.append_nil] at closes
        rw [regionsFrom_opened opens late, regionsFrom_opened (first.role ▸ opens) late',
          ← first.delimiter]
        generalize Mark.close? m.delimiter (reach l w m) 0 a = o at closes
        generalize Mark.close? m.delimiter (reach l w' m') 0 a' = o' at closes
        cases closes with
        | met near kin => exact .cons ⟨rfl, start, kin.span.2⟩ (ih kin.span.2)
        | apart far far' =>
          have none_found : o = none :=
            Option.eq_none_iff_forall_ne_some.mpr fun r found => by cases far r found
          have none_found' : o' = none :=
            Option.eq_none_iff_forall_ne_some.mpr fun r found => by cases far' r found
          rw [none_found, none_found']
          exact ih seeks

theorem regions_moved (alike : w.Alike w') (full : ∀ e ∈ l, e.1.Full)
    (kept : ∀ e ∈ l, e.1.keepsToLine = true) :
    List.Forall₂ (w.shared w').Same (l.regions w) (l.regions w') := by
  have seeks : w.start.offset + Text.size (w.shared w').left' =
      w'.start.offset + Text.size (w.shared w').left := by
    simp only [Window.shared, w.start.offset_eq, w'.start.offset_eq]
    omega
  have moved : List.Forall₂ (w.shared w').Same
      (regionsFrom l w 0 w.start.offset (Mark.sorted w l))
      (regionsFrom l w' 0 w'.start.offset (Mark.sorted w' l)) :=
    regionsFrom_moved (Mark.sorted_moved alike full kept) alike.stop seeks
  apply List.rel_filterMap _ moved
  intro r r' same
  dsimp only
  rw [same.1]
  cases l[r'.1]? with
  | none => exact .none
  | some e => exact .some ⟨rfl, same.2⟩

end Rules.Delimiters

end LiveHighlight
