import LiveHighlight.Proofs.Compiled
import LiveHighlight.Proofs.FixedWidth
import LiveHighlight.Proofs.LineComments
import LiveHighlight.Proofs.PairRegions

-- The sweep as it goes on over offsets and over places in the list of its marks, with every cut
-- of the text and every look into a list checked.

namespace LiveHighlight

def sift? {α : Type} (ask : α → Option Bool) : List α → Option (List α)
  | [] => some []
  | a :: rest =>
    match ask a, sift? ask rest with
    | some true, some others => some (a :: others)
    | some false, some others => some others
    | _, _ => none

theorem sift?_eq {α : Type} {ask : α → Option Bool} {p : α → Bool} {l : List α}
    (each : ∀ a ∈ l, ask a = some (p a)) : sift? ask l = some (l.filter p) := by
  induction l with
  | nil => rfl
  | cons a rest ih =>
    rw [sift?, each a (by simp), ih fun b member => each b (by simp [member]), List.filter_cons]
    cases p a with
    | true => rfl
    | false => rfl

def Span.upTo (s : Span) (len : Nat) : Span := ⟨min s.start len, min s.stop len⟩

namespace Window

variable {t : Text} {s : Span} {w : Window}

theorem of?_upTo (window : of? t s = some w) : s.upTo (Text.size t) = s := by
  obtain ⟨left, middle, right, whole, start, stop, rfl⟩ := of?_exact.mp window
  have size := congrArg Text.size whole
  rw [Text.size_append, Text.size_append] at size
  rw [Span.upTo, Nat.min_eq_left (by omega), Nat.min_eq_left (by omega)]

theorem of?_text (window : of? t s = some w) : w.text = t := by
  obtain ⟨left, middle, right, whole, start, stop, rfl⟩ := of?_exact.mp window
  rw [text, Cursor.between_text, whole, List.append_assoc]

end Window

-- It holds something, or it stands where a given text does that starts with a terminator.
structure Lies (t : Text) (starting : Text → Prop) (s : Span) : Prop where
  starts : Text.Boundary t s.start
  stops : Text.Boundary t s.stop
  held : s.start < s.stop ∨ s.start = s.stop ∧ ∃ x, starting x ∧
    x.head?.any Text.isTerminator = true ∧
      ∃ left right, t = left ++ (x ++ right) ∧ Text.size left = s.start

theorem Lies.imp {t : Text} {some_of all_of : Text → Prop} {s : Span} (lies : Lies t some_of s)
    (more : ∀ x, some_of x → all_of x) : Lies t all_of s := by
  refine ⟨lies.starts, lies.stops, lies.held.imp_right ?_⟩
  rintro ⟨nothing, x, own, said⟩
  exact ⟨nothing, x, more x own, said⟩

namespace Rules

namespace Occurrence

variable {w : Window} {needle t : Text} {o : Occurrence}

theorem Of.start_text (found : Of w needle o) : w.text = o.start.text ++ w.behind := by
  rw [Window.text, found.reached.same_text]

theorem Of.stop_text (found : Of w needle o) : w.text = o.stop.text ++ w.behind := by
  have leads : o.start.Leads (fun _ => True) o.stop := ⟨needle, by simp, found.rest, found.before⟩
  rw [found.start_text, leads.same_text]

theorem Of.starts (found : Of w needle o) : Text.Boundary w.text o.span.start :=
  o.start.boundary.further found.start_text

theorem Of.stops (found : Of w needle o) : Text.Boundary w.text o.span.stop :=
  o.stop.boundary.further found.stop_text

theorem Of.span_held (found : Of w needle o) (held : needle ≠ []) : o.span.start < o.span.stop := by
  have positive := Text.size_pos held
  have stop := found.stop
  simp only [Occurrence.span]
  omega

theorem Of.escapedAt? (found : Of w needle o) :
    w.text.escapedAt? o.span.start = some o.start.isEscaped :=
  PairSearch.escapedAt?_text found.start_text

theorem Of.contentStop? (found : Of w needle o) :
    w.text.contentStop? o.span.stop = some (w.lineContentStop o.stop) := by
  rw [found.stop_text, Text.contentStop?, Occurrence.span, Cursor.cut?_text]
  rfl

def standsAlone? (t : Text) (s : Span) : Option Bool :=
  if 1 < s.length then some true
  else (t.upTo? s.start).map fun before => before.getLast?.all Unicode.isBlank

theorem Of.standsAlone? (found : Of w needle o) :
    standsAlone? w.text o.span = some o.standsAlone := by
  rw [Occurrence.standsAlone?, Occurrence.standsAlone]
  split
  · rename_i long
    rw [decide_eq_true long]
    rfl
  · rename_i short
    rw [decide_eq_false short, Bool.false_or, found.start_text, Text.upTo?, Occurrence.span,
      Cursor.cut?_text, Option.map_some, Option.map_some, List.getLast?_reverse]
    cases o.start.before.head? with
    | none => rfl
    | some x => rfl

end Occurrence

namespace Mark

open Occurrence (Of)

-- The marks of a delimiter in a stretch. Of an occurrence only the span is used.

def at? (t : Text) (index : Nat) (role : Role) (s : Span) : Option Mark :=
  (t.contentStop? s.stop).map fun stop => ⟨index, role, s, stop⟩

def unescaped? (t : Text) (index : Nat) (role : Role) (l : List Occurrence) :
    Option (List Mark) := do
  let plain ← sift? (fun o => (t.escapedAt? o.span.start).map (!·)) l
  plain.mapM fun o => at? t index role o.span

def ofInline? (t : Text) (index : Nat) (o : Occurrence) : Option (List Mark) := do
  let stop ← t.contentStop? o.span.stop
  let opening ← unescaped? t index .opening [o]
  some (opening ++ [⟨index, .closing, ⟨stop, stop⟩, stop⟩])

def ofDelimiter? (t : Text) (w : Window) (index : Nat) : Delimiter → Option (List Mark)
  | .inline opening leading => do
    let found := if leading then Occurrence.leading w opening else Occurrence.all w opening
    let alone ← sift? (fun o => Occurrence.standsAlone? t o.span) found
    let marks ← alone.mapM (ofInline? t index)
    some marks.flatten
  | .pair opening closing _ =>
    if opening = closing then unescaped? t index .both (Occurrence.all w opening)
    else do
      let first ← unescaped? t index .opening (Occurrence.all w opening)
      let second ← unescaped? t index .closing (Occurrence.all w closing)
      some (first ++ second)

def ofDelimiters? (t : Text) (w : Window) (index : Nat) : Delimiters → Option (List Mark)
  | [] => some []
  | (d, _) :: rest => do
    let own ← ofDelimiter? t w index d
    let others ← ofDelimiters? t w (index + 1) rest
    some (own ++ others)

variable {w : Window} {needle : Text} {o : Occurrence} {index : Nat} {role : Role} {d : Delimiter}
  {l : Delimiters} {found : List Occurrence} {m : Mark}

theorem at?_exact (occurs : Of w needle o) :
    at? w.text index role o.span = some (ofOccurrence w index role o) := by
  rw [at?, occurs.contentStop?]
  rfl

theorem unescaped?_exact (occurs : ∀ o ∈ found, Of w needle o) :
    unescaped? w.text index role found = some (unescaped w index role found) := by
  have plain : sift? (fun o => (w.text.escapedAt? o.span.start).map (!·)) found =
      some (found.filter fun o => !o.start.isEscaped) :=
    sift?_eq fun o member => by rw [(occurs o member).escapedAt?]; rfl
  rw [unescaped?, plain]
  exact Width.mapM_eq fun o member => at?_exact (occurs o (List.mem_filter.mp member).1)

theorem ofInline?_exact (occurs : Of w needle o) :
    ofInline? w.text index o = some (ofInline w index o) := by
  have opening : unescaped? w.text index .opening [o] = some (unescaped w index .opening [o]) :=
    unescaped?_exact fun other member => List.mem_singleton.mp member ▸ occurs
  rw [ofInline?, occurs.contentStop?, opening]
  rfl

theorem ofDelimiter?_exact (full : d.Full) (w : Window) (index : Nat) :
    ofDelimiter? w.text w index d = some (ofDelimiter w index d) := by
  have all {needle : Text} {role : Role} (held : needle ≠ []) :
      unescaped? w.text index role (Occurrence.all w needle) =
        some (unescaped w index role (Occurrence.all w needle)) :=
    unescaped?_exact fun o member => Occurrence.of_all held member
  cases d with
  | inline opening leading =>
    rw [ofDelimiter?, ofDelimiter]
    have occurs : ∀ o ∈ (if leading then Occurrence.leading w opening
        else Occurrence.all w opening), Of w opening o := by
      intro o member
      split at member
      · exact Occurrence.of_leading full member
      · exact Occurrence.of_all full member
    generalize (if leading then Occurrence.leading w opening
      else Occurrence.all w opening) = found at occurs
    have alone : sift? (fun o => Occurrence.standsAlone? w.text o.span) found =
        some (found.filter (·.standsAlone)) :=
      sift?_eq fun o member => (occurs o member).standsAlone?
    have marks : (found.filter (·.standsAlone)).mapM (ofInline? w.text index) =
        some ((found.filter (·.standsAlone)).map (ofInline w index)) :=
      Width.mapM_eq fun o member => ofInline?_exact (occurs o (List.mem_filter.mp member).1)
    simp only [Option.bind_eq_bind, Option.bind_some, alone, marks, List.flatMap_def]
  | pair opening closing multiline =>
    rw [ofDelimiter?, ofDelimiter]
    split
    · exact all full.1
    · simp only [Option.bind_eq_bind, Option.bind_some, all full.1, all full.2]

theorem ofDelimiters?_exact (full : l.Full) (w : Window) (index : Nat) :
    ofDelimiters? w.text w index l = some (ofDelimiters w index l) := by
  induction l generalizing index with
  | nil => rfl
  | cons e rest ih =>
    have others := ih (fun f member => full f (by simp [member])) (index + 1)
    rw [ofDelimiters?, ofDelimiter?_exact (full e (by simp)), others]
    rfl

theorem opening_content (full : ∀ e ∈ l, e.1.Full) (member : m ∈ sorted w l)
    (opens : m.role.opens = true) : w.text.contentStop? m.span.stop = some m.contentStop := by
  obtain ⟨i, e, listed, o, candidate, -, rfl⟩ := (sorted_opening_iff opens).mp member
  exact (Delimiter.openings_of (full e (List.mem_of_getElem? listed)) candidate).contentStop?

end Mark

namespace Delimiters

def reach? (l : Delimiters) (t : Text) (stop : Nat) (m : Mark) : Option Nat := do
  let e ← l[m.delimiter]?
  if e.1.spansLines then some stop else (t.contentStop? m.span.stop).map (min · stop)

-- The sweep from a place in the list of marks on. With a region it goes on at the closing mark.
def sweep? (l : Delimiters) (t : Text) (stop : Nat) (marks : List Mark) (seek index : Nat) :
    Option (List (Category × Span)) :=
  if inside : index < marks.length then
    let m := marks[index]
    if !m.role.opens || m.span.start < seek then sweep? l t stop marks seek (index + 1)
    else
      match reach? l t stop m with
      | none => none
      | some limit =>
        match Mark.close? m.delimiter limit 0 (marks.drop (index + 1)) with
        | none => sweep? l t stop marks seek (index + 1)
        | some (between, _) =>
          match marks[index + 1 + between]?, l[m.delimiter]? with
          | some closing, some e =>
            (sweep? l t stop marks closing.span.stop (index + 1 + between)).map
              ((e.2, ⟨m.span.start, closing.span.stop⟩) :: ·)
          | _, _ => none
  else some []
termination_by marks.length - index

def regions? (l : Delimiters) (t : Text) (s : Span) : Option (List (Category × Span)) := do
  let w ← Window.of? t (s.upTo (Text.size t))
  let marks ← Mark.ofDelimiters? t w 0 l
  sweep? l t w.span.stop (Order.sort Mark.le marks) w.span.start 0

variable {l : Delimiters} {w : Window} {m : Mark} {marks : List Mark} {seek index : Nat} {t : Text}
  {s : Span}

theorem regionsFrom_drop (passing : Nat) : regionsFrom l w passing seek marks =
    regionsFrom l w 0 seek (marks.drop passing) := by
  induction marks generalizing passing with
  | nil =>
    rw [List.drop_nil]
    rfl
  | cons m rest ih =>
    cases passing with
    | zero => rfl
    | succ left =>
      rw [regionsFrom, ih]
      rfl

structure Known (l : Delimiters) (w : Window) (m : Mark) : Prop where
  listed : (l[m.delimiter]?).isSome = true
  content : m.role.opens = true → w.text.contentStop? m.span.stop = some m.contentStop

theorem reach?_exact (known : Known l w m) (opens : m.role.opens = true) :
    reach? l w.text w.span.stop m = some (reach l w m) := by
  obtain ⟨e, listed⟩ := Option.isSome_iff_exists.mp known.listed
  rw [reach?, reach, listed, known.content opens]
  dsimp only [Option.bind_eq_bind, Option.bind_some]
  split
  · rfl
  · rfl

theorem closing_place {limit depth n : Nat} {c : Mark}
    (found : Mark.close? m.delimiter limit depth (marks.drop index) = some (n, c)) :
    marks[index + n]? = some c := by
  obtain ⟨a, b, parts, rfl, -, -⟩ := Mark.close?_parts found
  rw [← List.getElem?_drop, parts, List.getElem?_append_right (Nat.le_refl _), Nat.sub_self]
  rfl

theorem opens_of_starts (starts : ¬ (!m.role.opens || decide (m.span.start < seek)) = true) :
    m.role.opens = true := by
  cases opens : m.role.opens with
  | true => rfl
  | false => simp [opens] at starts

theorem sweep?_exact (known : ∀ m ∈ marks, Known l w m) :
    sweep? l w.text w.span.stop marks seek index =
      some ((regionsFrom l w 0 seek (marks.drop index)).filterMap fun r =>
        (l[r.1]?).map fun e => (e.2, r.2)) := by
  fun_induction sweep? l w.text w.span.stop marks seek index with
  | case1 seek index inside m skipped ih =>
    rw [ih, List.drop_eq_getElem_cons inside, regionsFrom, if_pos skipped]
  | case2 seek index inside m starts failed =>
    rw [reach?_exact (known m (List.getElem_mem inside)) (opens_of_starts starts)] at failed
    cases failed
  | case3 seek index inside m starts limit reached unclosed ih =>
    rw [reach?_exact (known m (List.getElem_mem inside)) (opens_of_starts starts)] at reached
    cases reached
    rw [ih, List.drop_eq_getElem_cons inside, regionsFrom, if_neg starts, unclosed]
  | case4 seek index inside m starts limit reached between c found closing e at_e at_c ih =>
    rw [reach?_exact (known m (List.getElem_mem inside)) (opens_of_starts starts)] at reached
    cases reached
    cases at_c.symm.trans (closing_place found)
    rw [ih, List.drop_eq_getElem_cons inside, regionsFrom, if_neg starts, found]
    dsimp only
    rw [regionsFrom_drop between, List.drop_drop, List.filterMap_cons, at_e]
    rfl
  | case5 seek index inside m starts limit reached between c found apart =>
    obtain ⟨e, at_e⟩ := Option.isSome_iff_exists.mp (known m (List.getElem_mem inside)).listed
    exact (apart c e (closing_place found) at_e).elim
  | case6 seek index outside =>
    rw [List.drop_eq_nil_of_le (Nat.le_of_not_lt outside)]
    rfl

-- In a stretch of the text the checked sweep comes to the regions of the sweep.
theorem regions?_exact (full : l.Full) (window : Window.of? t s = some w) :
    l.regions? t s = some (l.regions w) := by
  have text := Window.of?_text window
  have marks := Mark.ofDelimiters?_exact full w 0
  have known : ∀ m ∈ Mark.sorted w l, Known l w m := by
    intro m member
    obtain ⟨e, -, listed, -⟩ := Mark.mem_sorted full member
    exact ⟨by rw [listed]; rfl, Mark.opening_content full member⟩
  rw [text] at marks
  rw [regions?, Window.of?_upTo window, window]
  simp only [Option.bind_eq_bind, Option.bind_some, marks]
  rw [← text]
  exact sweep?_exact known

end Delimiters

namespace Mark

open Occurrence (Of)

variable {w : Window} {l : Delimiters} {m c : Mark} {i : Nat} {e : Delimiter × Category}

-- What closes a region lies at places of the text. It holds something, or it is the end of a line.
inductive Closing (w : Window) (d : Delimiter) : Span → Prop where
  | held {s : Span} (more : s.start < s.stop) (stops : Text.Boundary w.text s.stop) :
      Closing w d s
  | lineEnd {opening left right : Text} {leading : Bool} (own : d = .inline opening leading)
      (whole : w.text = left ++ right)
      (ends : ∀ x, right.head? = some x → Text.isTerminator x = true) :
      Closing w d ⟨Text.size left, Text.size left⟩

theorem closing_parts (full : ∀ e ∈ l, e.1.Full) (member : c ∈ sorted w l)
    (closes : c.role.closes = true) (listed : l[c.delimiter]? = some e) :
    Closing w e.1 c.span := by
  have own := full e (List.mem_of_getElem? listed)
  obtain ⟨⟨opening, leading⟩ | ⟨opening, closing, multiline⟩, k⟩ := e
  · obtain ⟨o, occurs, span⟩ := closing_lineEnd full member listed closes
    obtain ⟨content, tail, whole, -, ended, size⟩ := content_parts occurs
    rw [span, ← size]
    exact .lineEnd rfl whole ended
  · obtain ⟨i, f, at_i, marked⟩ := mem_sorted_iff.mp member
    have index := (stems (full f (List.mem_of_getElem? at_i)) marked).delimiter
    rw [index] at listed
    cases at_i.symm.trans listed
    obtain ⟨needle, o, held, -, occurs, span⟩ := pair_span own marked
    rw [span]
    exact .held (occurs.span_held held) occurs.stops

end Mark

namespace Delimiters

variable {l : Delimiters} {w : Window} {r : Category × Span}

-- A closing that ends a line right where its delimiter stands makes that one start with the end.
theorem closing_lies {o : Occurrence} {d : Delimiter} {s : Span} (full : d.Full)
    (occurs : Occurrence.Of w d.opening o) (closes : Mark.Closing w d s)
    (ordered : o.span.start ≤ s.start) :
    Lies w.text (fun x => ∃ leading, d = .inline x leading) ⟨o.span.start, s.stop⟩ := by
  refine ⟨occurs.starts, ?_, ?_⟩
  · cases closes with
    | held more stops => exact stops
    | lineEnd own whole ends => exact ⟨_, _, whole, rfl⟩
  · cases closes with
    | held more stops => exact .inl (Nat.lt_of_le_of_lt ordered more)
    | @lineEnd opening left right leading own whole ends =>
      subst own
      rcases Nat.lt_or_eq_of_le ordered with less | same
      · exact .inl less
      · obtain ⟨front, behind⟩ :=
          Text.halves_of_eq (occurs.text.symm.trans whole) (occurs.before_size.trans same)
        obtain ⟨x, opening, rfl⟩ := List.exists_cons_of_ne_nil full
        have breaks := ends x (by rw [← behind]; rfl)
        exact .inr ⟨same, _, ⟨leading, rfl⟩, breaks, _, _, occurs.text, occurs.before_size⟩

def WritesInline (l : Delimiters) (x : Text) : Prop := ∃ e ∈ l, ∃ leading, e.1 = .inline x leading

theorem regions_lie (full : ∀ e ∈ l, e.1.Full) (member : r ∈ l.regions w) :
    Lies w.text l.WritesInline r.2 := by
  obtain ⟨swept, listed, named⟩ := List.mem_filterMap.mp member
  obtain ⟨m, c, ⟨opening, closing, opens, closed, own, ordered, -, rfl⟩⟩ :=
    regionsFrom_marked listed
  obtain ⟨i, e, at_i, o, candidate, plain, rfl⟩ := (Mark.sorted_opening_iff opens).mp opening
  have at_e : l[(Mark.ofOccurrence w i e.1.openingRole o).delimiter]? = some e := at_i
  rw [at_e, Option.map_some, Option.some.injEq] at named
  subst named
  have held := List.mem_of_getElem? at_i
  have occurs := Delimiter.openings_of (full e held) candidate
  have closes := Mark.closing_parts full closing closed (own ▸ at_e)
  exact (closing_lies (full e held) occurs closes ordered).imp fun x inline => ⟨e, held, inline⟩

end Delimiters

end Rules

end LiveHighlight
