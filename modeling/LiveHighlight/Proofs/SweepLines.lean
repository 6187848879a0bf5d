import LiveHighlight.Proofs.Occurrences

-- The sweep over a stretch that is cut behind a line terminator. The marks of either half are
-- those of the whole, and a region that is confined to its line is found in the half it is in.

namespace LiveHighlight

open Pattern (Frame)

namespace Rules

def Delimiter.Full : Delimiter → Prop
  | .inline opening _ => opening ≠ []
  | .pair opening closing _ => opening ≠ [] ∧ closing ≠ []

-- A region opens on its line, and what closes it may end the line but not go beyond.
def Delimiter.keepsToLine : Delimiter → Bool
  | .inline opening _ => opening.inLine
  | .pair opening closing _ => opening.inLine && closing.endsLine

namespace Occurrence

variable {needle x y t : Text} {last : Char} {w : Window} {c : Cursor} {o o' : Occurrence}
  {l : List Occurrence} {at? : Cursor → Option Occurrence}

structure Of (w : Window) (needle : Text) (o : Occurrence) : Prop where
  reached : w.start.Leads (fun _ => True) o.start
  rest : o.start.rest = needle ++ o.stop.rest
  before : o.stop.before = needle.reverse ++ o.start.before

theorem found_all (ahead : Ahead at?) (scan : Scan (find at?) c l) :
    ∀ o ∈ l, ∃ d, c.Leads (fun _ => True) d ∧ at? d = some o := by
  induction scan with
  | stay => simp
  | skip nothing more rest ih =>
    intro o member
    obtain ⟨d, leads, here⟩ := ih o member
    exact ⟨d, (Scan.next?_leads more).trans leads, here⟩
  | jump found rest ih =>
    rename_i c d l k
    cases here : at? c with
    | none => simp [find, here] at found
    | some o =>
      obtain ⟨first, second, -⟩ := ahead c o here
      simp only [find, here, Move.jump.injEq] at found
      obtain ⟨rfl, rfl⟩ := found
      intro other member
      rcases List.mem_append.mp member with own | later
      · cases List.mem_singleton.mp own
        exact ⟨c, c.leads_self, here⟩
      · obtain ⟨e, leads, there⟩ := ih other later
        exact ⟨e, (first.trans second).trans leads, there⟩

theorem here?_of (leads : w.start.Leads (fun _ => True) c) (found : here? needle c = some o) :
    Of w needle o := by
  obtain ⟨behind, rest, rfl⟩ := here?_exact.mp found
  exact ⟨leads, rest, rfl⟩

theorem indented?_of {rest : Text} (at_rest : c.rest = rest)
    (leads : w.start.Leads (fun _ => True) c) (found : indented? needle c rest = some o) :
    Of w needle o := by
  induction rest generalizing c with
  | nil =>
    have same : c.withRest [] = c := Cursor.same_place rfl at_rest.symm
    rw [indented?, same] at found
    exact here?_of leads found
  | cons x rest ih =>
    have same : c.withRest (x :: rest) = c := Cursor.same_place rfl at_rest.symm
    rw [indented?, same] at found
    split at found
    · rcases Option.or_eq_some_iff.mp found with deeper | ⟨-, here⟩
      · exact ih rfl (leads.trans (Cursor.leads_advance at_rest trivial)) deeper
      · exact here?_of leads here
    · exact here?_of leads found

theorem of_all (held : needle ≠ []) (member : o ∈ all w needle) : Of w needle o := by
  obtain ⟨d, leads, found⟩ := found_all (here?_ahead held) (all_scan w held) o member
  exact here?_of leads found

theorem of_leading (held : needle ≠ []) (member : o ∈ leading w needle) : Of w needle o := by
  obtain ⟨d, leads, found⟩ := found_all (leadingAt?_ahead w held) (leading_scan w held) o member
  unfold leadingAt? at found
  split at found
  · exact indented?_of rfl leads found
  · cases found

theorem Of.start_le (found : Of w needle o) : w.start.offset ≤ o.start.offset :=
  found.reached.offset

theorem Of.stop (found : Of w needle o) : o.stop.offset = o.start.offset + Text.size needle := by
  rw [o.stop.offset_eq, o.start.offset_eq, found.before, Text.size_append, Text.size_reverse]
  omega

theorem Of.text_end (found : Of w needle o) :
    o.start.offset + Text.size needle + Text.size o.stop.rest = w.span.stop := by
  have whole := found.reached.text_end
  rw [found.rest, Text.size_append] at whole
  simp only [Window.span, Window.body]
  omega

end Occurrence

end Rules

def Rules.Mark.lineEnd (w : Window) (index : Nat) (o : Rules.Occurrence) : Rules.Mark :=
  ⟨index, .closing, ⟨w.lineContentStop o.stop, w.lineContentStop o.stop⟩,
    w.lineContentStop o.stop⟩

namespace Pattern.Frame

open Rules

variable {f : Frame} {w w' : Window} {o o' : Occurrence} {l l' : List Occurrence} {m m' : Mark}
  {marks marks' : List Mark}

structure MarkShifted (f : Frame) (m m' : Mark) : Prop where
  delimiter : m.delimiter = m'.delimiter
  role : m.role = m'.role
  span : f.Shifted m.span m'.span
  content : m.contentStop + Text.size f.left' = m'.contentStop + Text.size f.left

def Continues (f : Frame) (w w' : Window) : Prop :=
  f.right ++ w.behind = f.right' ++ w'.behind

theorem ofOccurrence_moved (index : Nat) (role : Role) (goes : f.Continues w w') (twins : f.Twins o o') :
    f.MarkShifted (.ofOccurrence w index role o) (.ofOccurrence w' index role o') := by
  obtain ⟨⟨u, z, starts⟩, ⟨v, b, stops⟩⟩ := twins
  have ahead : o.stop.rest ++ w.behind = o'.stop.rest ++ w'.behind := by
    rw [stops.rest, stops.rest', List.append_assoc, List.append_assoc, goes]
  have first := starts.offset
  have first' := starts.offset'
  have last := stops.offset
  have last' := stops.offset'
  refine ⟨rfl, rfl, ⟨?_, ?_⟩, ?_⟩
  · simp only [Mark.ofOccurrence, Occurrence.span]
    omega
  · simp only [Mark.ofOccurrence, Occurrence.span]
    omega
  · simp only [Mark.ofOccurrence, Window.lineContentStop, ahead]
    omega

theorem unescaped_related {R : Mark → Mark → Prop} {T : Occurrence → Occurrence → Prop}
    (index : Nat) (role : Role) (level : f.Level) (twins : ∀ {o o'}, T o o' → f.Twins o o')
    (marked : ∀ {o o'}, T o o' →
      R (.ofOccurrence w index role o) (.ofOccurrence w' index role o'))
    (all : List.Forall₂ T l l') :
    List.Forall₂ R (Mark.unescaped w index role l) (Mark.unescaped w' index role l') := by
  unfold Mark.unescaped
  induction all with
  | nil => exact .nil
  | cons first others ih =>
    obtain ⟨u, z, starts⟩ := (twins first).1
    rw [List.filter_cons, List.filter_cons, level.escaped starts]
    split
    · exact .cons (marked first) ih
    · exact ih

theorem standsAlone_moved (level : f.Level) (twins : f.Twins o o') :
    o.standsAlone = o'.standsAlone := by
  obtain ⟨⟨u, z, starts⟩, ⟨v, b, stops⟩⟩ := twins
  have first := starts.offset
  have first' := starts.offset'
  have last := stops.offset
  have last' := stops.offset'
  have length : o.span.length = o'.span.length := by
    simp only [Occurrence.span, Span.length]
    omega
  have before : o.start.before.head? = o'.start.before.head? := level.before_head starts
  unfold Occurrence.standsAlone
  rw [length, before]

theorem inlines_related {R : Mark → Mark → Prop} {T : Occurrence → Occurrence → Prop}
    (index : Nat) (level : f.Level) (twins : ∀ {o o'}, T o o' → f.Twins o o')
    (marked : ∀ {o o'}, T o o' →
      R (.ofOccurrence w index .opening o) (.ofOccurrence w' index .opening o') ∧
        R (.lineEnd w index o) (.lineEnd w' index o'))
    (all : List.Forall₂ T l l') :
    List.Forall₂ R ((l.filter (·.standsAlone)).flatMap (Mark.ofInline w index))
      ((l'.filter (·.standsAlone)).flatMap (Mark.ofInline w' index)) := by
  induction all with
  | nil => exact .nil
  | cons first others ih =>
    rw [List.filter_cons, List.filter_cons, standsAlone_moved level (twins first)]
    split
    · have opening := unescaped_related index .opening level twins (fun held => (marked held).1)
        (.cons first .nil)
      rw [List.flatMap_cons, List.flatMap_cons]
      exact List.rel_append (List.rel_append opening (.cons (marked first).2 .nil)) ih
    · exact ih

theorem lineEnd_moved (index : Nat) (goes : f.Continues w w') (twins : f.Twins o o') :
    f.MarkShifted (.lineEnd w index o) (.lineEnd w' index o') := by
  have content := (ofOccurrence_moved index .opening goes twins).content
  exact ⟨rfl, rfl, ⟨content, content⟩, content⟩

theorem marks_same (same : f.left = f.left') (all : List.Forall₂ f.MarkShifted marks marks') :
    marks = marks' := by
  induction all with
  | nil => rfl
  | cons first others ih =>
    obtain ⟨delimiter, role, ⟨start, stop⟩, content⟩ := first
    rename_i m m' _ _
    obtain ⟨index, role, ⟨start, stop⟩, content⟩ := m
    obtain ⟨index', role', ⟨start', stop'⟩, content'⟩ := m'
    rw [same] at start stop content
    simp_all

end Pattern.Frame

namespace Rules.Mark

open Occurrence (Of)

variable {needle x y t : Text} {last : Char} {w : Window} {o : Occurrence} {m : Mark} {index : Nat}
  {role : Role} {l : List Occurrence} {d : Delimiter} {marks : List Mark}

theorem mem_unescaped (member : m ∈ unescaped w index role l) :
    ∃ o ∈ l, m = ofOccurrence w index role o := by
  obtain ⟨o, held, rfl⟩ := List.mem_map.mp member
  exact ⟨o, (List.mem_filter.mp held).1, rfl⟩

theorem mem_ofInline (member : m ∈ ofInline w index o) :
    m = ofOccurrence w index .opening o ∨ m = lineEnd w index o := by
  rcases List.mem_append.mp member with opening | closing
  · obtain ⟨other, held, rfl⟩ := mem_unescaped opening
    cases List.mem_singleton.mp held
    exact .inl rfl
  · exact .inr (List.mem_singleton.mp closing)

-- A mark is an occurrence, or the end of the line that an inline one stands on.
inductive Stems (w : Window) (index : Nat) (d : Delimiter) : Mark → Prop where
  | occurrence {needle : Text} {role : Role} {o : Occurrence} (held : needle ≠ [])
      (found : Of w needle o) (ends : d.keepsToLine = true → needle.endsLine = true)
      (opens : d.keepsToLine = true → role.opens = true → needle.inLine = true) :
      Stems w index d (ofOccurrence w index role o)
  | lineEnd {opening : Text} {o : Occurrence} (held : opening ≠ []) (found : Of w opening o)
      (kept : d.keepsToLine = true → opening.inLine = true) :
      Stems w index d (lineEnd w index o)

theorem stems_inline {opening : Text} {leading : Bool} (full : opening ≠ [])
    (member : m ∈ ofDelimiter w index (.inline opening leading)) :
    Stems w index (.inline opening leading) m := by
  unfold ofDelimiter at member
  obtain ⟨o, held, own⟩ := List.mem_flatMap.mp member
  have listed := (List.mem_filter.mp held).1
  have found : Of w opening o := by
    split at listed
    · exact Occurrence.of_leading full listed
    · exact Occurrence.of_all full listed
  rcases mem_ofInline own with rfl | rfl
  · exact .occurrence full found (fun kept => Text.inLine_endsLine kept) fun kept _ => kept
  · exact .lineEnd full found id

theorem stems_pair {opening closing : Text} {multiline : Bool}
    (full : opening ≠ [] ∧ closing ≠ [])
    (member : m ∈ ofDelimiter w index (.pair opening closing multiline)) :
    Stems w index (.pair opening closing multiline) m := by
  have kept : (Delimiter.pair opening closing multiline).keepsToLine = true →
      opening.inLine = true ∧ closing.endsLine = true := Bool.and_eq_true_iff.mp
  have opens : ∀ role, m ∈ unescaped w index role (Occurrence.all w opening) →
      Stems w index (.pair opening closing multiline) m := by
    intro role own
    obtain ⟨o, held, rfl⟩ := mem_unescaped own
    exact .occurrence full.1 (Occurrence.of_all full.1 held)
      (fun keeps => Text.inLine_endsLine (kept keeps).1) fun keeps _ => (kept keeps).1
  simp only [ofDelimiter] at member
  split at member
  · exact opens _ member
  · rcases List.mem_append.mp member with first | second
    · exact opens _ first
    · obtain ⟨o, held, rfl⟩ := mem_unescaped second
      exact .occurrence full.2 (Occurrence.of_all full.2 held) (fun keeps => (kept keeps).2)
        fun _ opening => by cases opening

theorem stems (full : d.Full) (member : m ∈ ofDelimiter w index d) : Stems w index d m := by
  cases d with
  | inline opening leading => exact stems_inline full member
  | pair opening closing multiline => exact stems_pair full member

theorem Stems.delimiter (from_d : Stems w index d m) : m.delimiter = index := by
  cases from_d with
  | occurrence => rfl
  | lineEnd => rfl

theorem Stems.start_le (from_d : Stems w index d m) : w.start.offset ≤ m.span.start := by
  cases from_d with
  | occurrence held found => exact found.start_le
  | lineEnd held found =>
    have ahead := found.start_le
    have stop := found.stop
    simp only [Mark.lineEnd, Window.lineContentStop]
    omega

theorem Stems.opens_within (from_d : Stems w index d m) (opens : m.role.opens = true) :
    m.span.start < w.span.stop := by
  cases from_d with
  | occurrence held found =>
    have whole := found.text_end
    have positive := Text.size_pos held
    simp only [ofOccurrence, Occurrence.span]
    omega
  | lineEnd => cases opens

theorem Stems.stop_le (from_d : Stems w index d m) (near : m.span.start ≤ w.span.stop) :
    m.span.stop ≤ w.span.stop := by
  cases from_d with
  | occurrence held found =>
    have whole := found.text_end
    have stop := found.stop
    simp only [ofOccurrence, Occurrence.span]
    omega
  | lineEnd => exact near

theorem terminated (found : Of w needle o) (held : needle ≠ []) (kept : needle.inLine = true)
    (body : w.body = t ++ [last]) (ends : Text.isTerminator last = true) :
    (Text.lineContent o.stop.rest).2 ≠ [] := by
  have more : o.start.rest ≠ [] := by
    rw [found.rest]
    simp [held]
  have member : last ∈ o.start.rest := by
    obtain ⟨u, -, rest, -⟩ := found.reached
    have same := congrArg List.getLast? (rest.symm.trans body)
    rw [List.getLast?_append_of_ne_nil _ more] at same
    exact List.mem_of_getLast? (by simpa using same)
  rw [found.rest] at member
  rcases List.mem_append.mp member with own | later
  · have within := List.all_eq_true.mp kept last own
    simp [ends] at within
  · exact Text.lineContent_ends ends later

theorem content_within (found : Of w needle o) (held : needle ≠ []) (kept : needle.inLine = true)
    (body : w.body = t ++ [last]) (ends : Text.isTerminator last = true) :
    w.lineContentStop o.stop < w.span.stop := by
  have ended := terminated found held kept body ends
  have parts := congrArg Text.size (Text.lineContent_parts o.stop.rest)
  have positive := Text.size_pos ended
  have whole := found.text_end
  have stop := found.stop
  rw [Text.size_append] at parts
  rw [Window.lineContentStop, Text.lineContent_append ended]
  dsimp only
  omega

theorem Stems.placed (from_d : Stems w index d m) (kept : d.keepsToLine = true)
    (body : w.body = t ++ [last]) (ends : Text.isTerminator last = true) :
    m.span.start < w.span.stop ∧ m.span.stop ≤ w.span.stop ∧
      (m.role.opens = true → m.contentStop < w.span.stop) := by
  cases from_d with
  | occurrence held found _ opens =>
    have whole := found.text_end
    have stop := found.stop
    have positive := Text.size_pos held
    simp only [ofOccurrence, Occurrence.span]
    exact ⟨by omega, by omega,
      fun opening => content_within found held (opens kept opening) body ends⟩
  | lineEnd held found inLine =>
    have within := content_within found held (inLine kept) body ends
    exact ⟨within, Nat.le_of_lt within, fun opening => by cases opening⟩

theorem unescaped_cut (index : Nat) (role : Role) (held : needle ≠ [])
    (kept : needle.endsLine = true) (body : w.body = x ++ y) (front : x = t ++ [last])
    (ends : Text.isTerminator last = true) :
    unescaped w index role (Occurrence.all w needle) =
      unescaped (w.front x y) index role (Occurrence.all (w.front x y) needle) ++
        unescaped (w.back x y) index role (Occurrence.all (w.back x y) needle) := by
  obtain ⟨l', twins, whole⟩ := Occurrence.all_cut held kept body front ends
  have goes : (w.seam x y).Continues (w.front x y) w := rfl
  have moved := Frame.unescaped_related index role w.seam_level id
    (fun held => Frame.ofOccurrence_moved index role goes held) twins
  rw [whole, Frame.marks_same rfl moved]
  simp only [unescaped, List.filter_append, List.map_append]
  rfl

theorem inline_cut {opening : Text} {leading : Bool} (index : Nat) (held : opening ≠ [])
    (kept : opening.inLine = true) (body : w.body = x ++ y) (front : x = t ++ [last])
    (ends : Text.isTerminator last = true) :
    ofDelimiter w index (.inline opening leading) =
      ofDelimiter (w.front x y) index (.inline opening leading) ++
        ofDelimiter (w.back x y) index (.inline opening leading) := by
  have found : ∃ l', List.Forall₂ (w.seam x y).Twins
      (if leading then Occurrence.leading (w.front x y) opening
        else Occurrence.all (w.front x y) opening) l' ∧
      (if leading then Occurrence.leading w opening else Occurrence.all w opening) =
        l' ++ if leading then Occurrence.leading (w.back x y) opening
          else Occurrence.all (w.back x y) opening := by
    cases leading with
    | true => exact Occurrence.leading_cut held kept body front ends
    | false => exact Occurrence.all_cut held (Text.inLine_endsLine kept) body front ends
  obtain ⟨l', twins, whole⟩ := found
  have goes : (w.seam x y).Continues (w.front x y) w := rfl
  have moved := Frame.inlines_related index w.seam_level id
    (fun held => ⟨Frame.ofOccurrence_moved index .opening goes held,
      Frame.lineEnd_moved index goes held⟩) twins
  simp only [ofDelimiter]
  rw [whole, Frame.marks_same rfl moved, List.filter_append, List.flatMap_append]
  rfl

def early (cut : Nat) (m : Mark) : Bool := m.span.start < cut

theorem filter_early {a b : List Mark} {cut : Nat} (first : ∀ m ∈ a, m.span.start < cut)
    (second : ∀ m ∈ b, cut ≤ m.span.start) :
    (a ++ b).filter (early cut) = a ∧ (a ++ b).filter (fun m => !early cut m) = b := by
  have all_a : a.filter (early cut) = a :=
    List.filter_eq_self.mpr fun m member => by simpa [early] using first m member
  have no_a : a.filter (fun m => !early cut m) = [] :=
    List.filter_eq_nil_iff.mpr fun m member => by simpa [early] using first m member
  have no_b : b.filter (early cut) = [] :=
    List.filter_eq_nil_iff.mpr fun m member => by simpa [early] using second m member
  have all_b : b.filter (fun m => !early cut m) = b :=
    List.filter_eq_self.mpr fun m member => by simpa [early] using second m member
  rw [List.filter_append, List.filter_append, all_a, no_a, no_b, all_b, List.append_nil,
    List.nil_append]
  exact ⟨rfl, rfl⟩

theorem back_start (w : Window) (x y : Text) :
    (w.back x y).start.offset = (w.front x y).span.stop := by
  simp only [Window.back, Cursor.past, Window.front, Window.span, Window.body, Cursor.withRest]
  omega

theorem unescaped_halves (index : Nat) (role : Role) (held : needle ≠ [])
    (kept : needle.endsLine = true) (body : w.body = x ++ y) (front : x = t ++ [last])
    (ends : Text.isTerminator last = true) :
    (unescaped w index role (Occurrence.all w needle)).filter (early (w.back x y).start.offset) =
        unescaped (w.front x y) index role (Occurrence.all (w.front x y) needle) ∧
      (unescaped w index role (Occurrence.all w needle)).filter
          (fun m => !early (w.back x y).start.offset m) =
        unescaped (w.back x y) index role (Occurrence.all (w.back x y) needle) := by
  rw [unescaped_cut index role held kept body front ends]
  apply filter_early
  · intro m member
    obtain ⟨o, listed, rfl⟩ := mem_unescaped member
    have whole := (Occurrence.of_all held listed).text_end
    have positive := Text.size_pos held
    rw [back_start]
    simp only [ofOccurrence, Occurrence.span]
    omega
  · intro m member
    obtain ⟨o, listed, rfl⟩ := mem_unescaped member
    exact (Occurrence.of_all held listed).start_le

theorem ofDelimiter_cut (index : Nat) (full : d.Full) (kept : d.keepsToLine = true)
    (body : w.body = x ++ y) (front : x = t ++ [last]) (ends : Text.isTerminator last = true) :
    (ofDelimiter w index d).filter (early (w.back x y).start.offset) =
        ofDelimiter (w.front x y) index d ∧
      (ofDelimiter w index d).filter (fun m => !early (w.back x y).start.offset m) =
        ofDelimiter (w.back x y) index d := by
  cases d with
  | inline opening leading =>
    rw [inline_cut index full kept body front ends]
    apply filter_early
    · intro m member
      rw [back_start]
      exact ((stems_inline full member).placed kept front ends).1
    · exact fun m member => (stems_inline full member).start_le
  | pair opening closing multiline =>
    obtain ⟨inLine, endsLine⟩ := Bool.and_eq_true_iff.mp kept
    have opens (role : Role) := unescaped_halves index role full.1 (Text.inLine_endsLine inLine)
      body front ends
    have closes := unescaped_halves index .closing full.2 endsLine body front ends
    simp only [ofDelimiter]
    split
    · exact opens .both
    · rw [List.filter_append, List.filter_append, (opens .opening).1, (opens .opening).2,
        closes.1, closes.2]
      exact ⟨rfl, rfl⟩

theorem ofDelimiters_cut {l : Delimiters} (index : Nat) (full : ∀ e ∈ l, e.1.Full)
    (kept : ∀ e ∈ l, e.1.keepsToLine = true) (body : w.body = x ++ y) (front : x = t ++ [last])
    (ends : Text.isTerminator last = true) :
    (ofDelimiters w index l).filter (early (w.back x y).start.offset) =
        ofDelimiters (w.front x y) index l ∧
      (ofDelimiters w index l).filter (fun m => !early (w.back x y).start.offset m) =
        ofDelimiters (w.back x y) index l := by
  induction l generalizing index with
  | nil => exact ⟨rfl, rfl⟩
  | cons e rest ih =>
    obtain ⟨before, behind⟩ := ofDelimiter_cut index (full e (by simp)) (kept e (by simp)) body
      front ends
    obtain ⟨others, further⟩ := ih (index + 1) (fun e member => full e (by simp [member]))
      (fun e member => kept e (by simp [member]))
    simp only [ofDelimiters, List.filter_append]
    rw [before, behind, others, further]
    exact ⟨rfl, rfl⟩

end Rules.Mark

namespace Order

variable {α : Type} {le : α → α → Bool} {p : α → Bool} {a b l : List α}

theorem place_front (new : α) (within : p new = true) (second : ∀ c ∈ b, p c = false)
    (apart : ∀ c d, p c = true → p d = false → le c d = true) :
    place le new (a ++ b) = place le new a ++ b := by
  induction a with
  | nil =>
    cases b with
    | nil => rfl
    | cons c rest =>
      have before := apart new c within (second c (by simp))
      simp [place, before]
  | cons c rest ih =>
    simp only [List.cons_append, place]
    split
    · rfl
    · rw [ih, List.cons_append]

theorem place_back (new : α) (without : p new = false) (first : ∀ c ∈ a, p c = true)
    (apart : ∀ c d, p c = true → p d = false → le d c = false) :
    place le new (a ++ b) = a ++ place le new b := by
  induction a with
  | nil => rfl
  | cons c rest ih =>
    have behind := apart c new (first c (by simp)) without
    simp only [List.cons_append, place, behind, Bool.false_eq_true, if_false]
    rw [ih fun d member => first d (by simp [member])]

theorem sort_parts (apart : ∀ c d, p c = true → p d = false → le c d = true ∧ le d c = false) :
    sort le l = sort le (l.filter p) ++ sort le (l.filter fun c => !p c) := by
  induction l with
  | nil => rfl
  | cons c rest ih =>
    have first : ∀ d ∈ sort le (rest.filter p), p d = true := fun d member =>
      (List.mem_filter.mp ((sort_perm _).mem_iff.mp member)).2
    have second : ∀ d ∈ sort le (rest.filter fun c => !p c), p d = false := fun d member => by
      simpa using (List.mem_filter.mp ((sort_perm _).mem_iff.mp member)).2
    cases kind : p c with
    | true =>
      simp only [sort, List.filter_cons, kind, ih, Bool.not_true, Bool.false_eq_true, if_true,
        if_false]
      exact place_front c kind second fun c d first second => (apart c d first second).1
    | false =>
      simp only [sort, List.filter_cons, kind, ih, Bool.not_false, Bool.false_eq_true, if_true,
        if_false]
      exact place_back c kind first fun c d first second => (apart c d first second).2

end Order

namespace Rules.Mark

variable {x y t : Text} {last : Char} {w : Window} {l : Delimiters}

theorem early_apart (cut : Nat) (a b : Mark) (first : early cut a = true)
    (second : early cut b = false) : le a b = true ∧ le b a = false := by
  simp only [early, decide_eq_true_eq, decide_eq_false_iff_not] at first second
  constructor
  · simp only [le, Bool.or_eq_true, decide_eq_true_eq]
    omega
  · simp only [le, Bool.or_eq_false_iff, Bool.and_eq_false_iff, decide_eq_false_iff_not,
      beq_eq_false_iff_ne]
    omega

theorem sorted_cut (full : ∀ e ∈ l, e.1.Full) (kept : ∀ e ∈ l, e.1.keepsToLine = true)
    (body : w.body = x ++ y) (front : x = t ++ [last]) (ends : Text.isTerminator last = true) :
    sorted w l = sorted (w.front x y) l ++ sorted (w.back x y) l := by
  obtain ⟨before, behind⟩ := ofDelimiters_cut 0 full kept body front ends
  unfold sorted
  rw [Order.sort_parts (early_apart (w.back x y).start.offset), before, behind]

end Rules.Mark

end LiveHighlight
