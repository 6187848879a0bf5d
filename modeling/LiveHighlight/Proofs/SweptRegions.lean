import LiveHighlight.Proofs.LineByLine
import LiveHighlight.Proofs.PartedRegions
import LiveHighlight.Proofs.SpanSets

-- What the regions of a sweep are. Each opens where its delimiter may open and keeps to its line
-- if the delimiter does, no two overlap, and no delimiter outside of them could have opened one.

namespace LiveHighlight

namespace Text

theorem lineContent_inLine (t : Text) : (lineContent t).1.inLine = true := by
  rw [lineContent, List.span_eq_takeWhile_dropWhile]
  exact List.all_takeWhile

theorem lineContent_head {t : Text} {x : Char} (head : (lineContent t).2.head? = some x) :
    isTerminator x = true := by
  rw [lineContent, List.span_eq_takeWhile_dropWhile] at head
  have stopped := List.head?_dropWhile_not (fun c => !isTerminator c) t
  rw [head] at stopped
  simpa using stopped

theorem inLine_within {a tail left needle right : Text}
    (parts : a ++ tail = left ++ (needle ++ right))
    (ended : ∀ x, tail.head? = some x → isTerminator x = true) (inLine : needle.inLine = true)
    (near : size left ≤ size a) : size left + size needle ≤ size a := by
  refine Nat.le_of_not_lt fun beyond => ?_
  rw [← size_append] at beyond
  obtain ⟨rest, rfl, inner⟩ := halves_of_le parts.symm near
  rw [size_append, size_append] at beyond
  obtain ⟨after, held, rfl, same⟩ := halves_of_lt inner.symm (by omega)
  obtain ⟨x, after, rfl⟩ := List.exists_cons_of_ne_nil held
  have ends := ended x (by rw [same]; rfl)
  have within := List.all_eq_true.mp inLine x (by simp)
  simp [ends] at within

end Text

namespace Rules

namespace Delimiter

def inLine : Delimiter → Bool
  | .inline opening _ => opening.inLine
  | .pair opening closing _ => opening.inLine && closing.inLine

def opening : Delimiter → Text
  | .inline opening _ => opening
  | .pair opening _ _ => opening

def openingRole : Delimiter → Role
  | .inline _ _ => .opening
  | .pair opening closing _ => if opening = closing then .both else .opening

def openings (w : Window) : Delimiter → List Occurrence
  | .inline opening leading =>
    (if leading then Occurrence.leading w opening else Occurrence.all w opening).filter
      (·.standsAlone)
  | .pair opening _ _ => Occurrence.all w opening

variable {d : Delimiter} {w : Window} {o : Occurrence}

theorem keepsToLine_of_inLine (inLine : d.inLine = true) : d.keepsToLine = true := by
  cases d with
  | inline opening leading => exact inLine
  | pair opening closing multiline =>
    obtain ⟨first, second⟩ := Bool.and_eq_true_iff.mp inLine
    exact Bool.and_eq_true_iff.mpr ⟨first, Text.inLine_endsLine second⟩

theorem opening_inLine (inLine : d.inLine = true) : d.opening.inLine = true := by
  cases d with
  | inline opening leading => exact inLine
  | pair opening closing multiline => exact (Bool.and_eq_true_iff.mp inLine).1

theorem openingRole_opens (d : Delimiter) : d.openingRole.opens = true := by
  cases d with
  | inline opening leading => rfl
  | pair opening closing multiline =>
    rw [openingRole]
    split
    · rfl
    · rfl

theorem openings_of (full : d.Full) (member : o ∈ d.openings w) : Occurrence.Of w d.opening o := by
  cases d with
  | inline opening leading =>
    have listed := (List.mem_filter.mp member).1
    split at listed
    · exact Occurrence.of_leading full listed
    · exact Occurrence.of_all full listed
  | pair opening closing multiline => exact Occurrence.of_all full.1 member

end Delimiter

theorem Occurrence.Of.text {w : Window} {needle : Text} {o : Occurrence} (found : Of w needle o) :
    w.text = o.start.before.reverse ++ (needle ++ (o.stop.rest ++ w.behind)) := by
  obtain ⟨u, -, rest, before⟩ := found.reached
  rw [Window.text, Cursor.text, rest, before, found.rest]
  simp

theorem Occurrence.Of.before_size {w : Window} {needle : Text} {o : Occurrence}
    (_ : Of w needle o) : Text.size o.start.before.reverse = o.start.offset := by
  rw [Text.size_reverse, o.start.offset_eq]

namespace Mark

open Occurrence (Of)

variable {w : Window} {l : Delimiters} {index : Nat} {d : Delimiter} {m : Mark} {o : Occurrence}
  {needle : Text} {s : Span}

theorem mem_ofDelimiters_iff : m ∈ ofDelimiters w index l ↔
    ∃ i e, l[i]? = some e ∧ m ∈ ofDelimiter w (index + i) e.1 := by
  induction l generalizing index with
  | nil => simp [ofDelimiters]
  | cons e rest ih =>
    rw [ofDelimiters, List.mem_append, ih]
    constructor
    · rintro (own | ⟨i, f, listed, later⟩)
      · exact ⟨0, e, rfl, own⟩
      · refine ⟨i + 1, f, listed, ?_⟩
        rwa [Nat.add_comm i, ← Nat.add_assoc]
    · rintro ⟨i, f, listed, member⟩
      cases i with
      | zero =>
        cases Option.some.inj listed
        exact .inl member
      | succ i =>
        refine .inr ⟨i, f, listed, ?_⟩
        rwa [Nat.add_comm i, ← Nat.add_assoc] at member

theorem mem_sorted_iff : m ∈ sorted w l ↔ ∃ i e, l[i]? = some e ∧ m ∈ ofDelimiter w i e.1 := by
  rw [sorted, (Order.sort_perm _).mem_iff, mem_ofDelimiters_iff]
  simp only [Nat.zero_add]

theorem mem_unescaped_iff {role : Role} {l : List Occurrence} : m ∈ unescaped w index role l ↔
    ∃ o ∈ l, o.start.isEscaped = false ∧ m = ofOccurrence w index role o := by
  simp only [unescaped, List.mem_map, List.mem_filter, Bool.not_eq_true', and_assoc, @eq_comm _ m]

theorem opening_iff (opens : m.role.opens = true) : m ∈ ofDelimiter w index d ↔
    ∃ o ∈ d.openings w, o.start.isEscaped = false ∧ m = ofOccurrence w index d.openingRole o := by
  cases d with
  | inline opening leading =>
    simp only [ofDelimiter, List.mem_flatMap, ofInline, List.mem_append, mem_unescaped_iff,
      List.mem_singleton, Delimiter.openings, Delimiter.openingRole]
    constructor
    · rintro ⟨o, listed, ⟨other, rfl, said⟩ | rfl⟩
      · exact ⟨other, listed, said⟩
      · cases opens
    · rintro ⟨o, listed, said⟩
      exact ⟨o, listed, .inl ⟨o, rfl, said⟩⟩
  | pair opening closing multiline =>
    simp only [ofDelimiter, Delimiter.openings, Delimiter.openingRole]
    split
    · exact mem_unescaped_iff
    · rw [List.mem_append, mem_unescaped_iff, mem_unescaped_iff, or_iff_left]
      rintro ⟨o, -, -, rfl⟩
      cases opens

theorem sorted_opening_iff (opens : m.role.opens = true) : m ∈ sorted w l ↔
    ∃ i e, l[i]? = some e ∧ ∃ o ∈ e.1.openings w, o.start.isEscaped = false ∧
      m = ofOccurrence w i e.1.openingRole o := by
  simp only [mem_sorted_iff, opening_iff opens]

theorem pair_span {opening closing : Text} {multiline : Bool}
    (full : opening ≠ [] ∧ closing ≠ [])
    (member : m ∈ ofDelimiter w index (.pair opening closing multiline)) :
    ∃ needle o, needle ≠ [] ∧ (needle = opening ∨ needle = closing) ∧ Of w needle o ∧
      m.span = o.span := by
  have each : ∀ needle role, needle ≠ [] → needle = opening ∨ needle = closing →
      m ∈ unescaped w index role (Occurrence.all w needle) →
        ∃ needle o, needle ≠ [] ∧ (needle = opening ∨ needle = closing) ∧ Of w needle o ∧
          m.span = o.span := by
    intro needle role held needles own
    obtain ⟨o, listed, rfl⟩ := mem_unescaped own
    exact ⟨needle, o, held, needles, Occurrence.of_all held listed, rfl⟩
  simp only [ofDelimiter] at member
  split at member
  · exact each _ _ full.1 (.inl rfl) member
  · rcases List.mem_append.mp member with opens | closes
    · exact each _ _ full.1 (.inl rfl) opens
    · exact each _ _ full.2 (.inr rfl) closes

inductive Stands (w : Window) : Span → Prop where
  | occurrence {needle : Text} {o : Occurrence} (found : Of w needle o)
      (inLine : needle.inLine = true) : Stands w o.span
  | lineEnd {needle : Text} {o : Occurrence} (found : Of w needle o) :
      Stands w ⟨w.lineContentStop o.stop, w.lineContentStop o.stop⟩

theorem stands (full : d.Full) (inLine : d.inLine = true) (member : m ∈ ofDelimiter w index d) :
    Stands w m.span := by
  cases d with
  | inline opening leading =>
    obtain ⟨o, listed, own⟩ := List.mem_flatMap.mp member
    have found : Of w opening o := Delimiter.openings_of (d := .inline opening leading) full listed
    rcases mem_ofInline own with rfl | rfl
    · exact .occurrence found inLine
    · exact .lineEnd found
  | pair opening closing multiline =>
    obtain ⟨first, second⟩ := Bool.and_eq_true_iff.mp inLine
    obtain ⟨needle, o, -, needles, found, span⟩ := pair_span full member
    rw [span]
    rcases needles with rfl | rfl
    · exact .occurrence found first
    · exact .occurrence found second

theorem sorted_stands (full : ∀ e ∈ l, e.1.Full) (inLine : ∀ e ∈ l, e.1.inLine = true)
    (member : m ∈ sorted w l) : Stands w m.span := by
  obtain ⟨i, e, listed, of_e⟩ := mem_sorted_iff.mp member
  have held := List.mem_of_getElem? listed
  exact stands (full e held) (inLine e held) of_e

theorem sorted_stop (full : ∀ e ∈ l, e.1.Full) (member : m ∈ sorted w l)
    (near : m.span.start ≤ w.span.stop) : m.span.stop ≤ w.span.stop := by
  obtain ⟨e, -, -, from_e⟩ := mem_sorted full member
  exact from_e.stop_le near

theorem content_parts (found : Of w needle o) : ∃ content tail, w.text =
    o.start.before.reverse ++ (needle ++ content) ++ tail ∧ content.inLine = true ∧
      (∀ x, tail.head? = some x → Text.isTerminator x = true) ∧
      Text.size (o.start.before.reverse ++ (needle ++ content)) = w.lineContentStop o.stop := by
  refine ⟨(Text.lineContent (o.stop.rest ++ w.behind)).1,
    (Text.lineContent (o.stop.rest ++ w.behind)).2, ?_, Text.lineContent_inLine _,
    fun x => Text.lineContent_head, ?_⟩
  · rw [List.append_assoc, List.append_assoc, Text.lineContent_parts, found.text]
  · rw [Text.size_append, Text.size_append, found.before_size, Window.lineContentStop, found.stop]
    omega

theorem Stands.place (stands : Stands w s) :
    ∃ left right, w.text = left ++ right ∧ Text.size left = s.stop := by
  cases stands with
  | @occurrence needle o found inLine =>
    refine ⟨o.start.before.reverse ++ needle, o.stop.rest ++ w.behind, ?_, ?_⟩
    · rw [found.text, List.append_assoc]
    · rw [Text.size_append, found.before_size]
      exact found.stop.symm
  | lineEnd found =>
    obtain ⟨content, tail, whole, -, -, size⟩ := content_parts found
    exact ⟨_, tail, whole, size⟩

theorem Stands.stop_content (stands : Stands w s) (found : Of w needle o)
    (near : s.start ≤ w.lineContentStop o.stop) : s.stop ≤ w.lineContentStop o.stop := by
  cases stands with
  | @occurrence needle' o' found' inLine =>
    obtain ⟨content, tail, whole, -, ended, size⟩ := content_parts found
    have start := found'.before_size
    have stop := found'.stop
    simp only [Occurrence.span] at near ⊢
    rw [stop, ← start, ← size]
    exact Text.inLine_within (whole.symm.trans found'.text) ended inLine (by omega)
  | lineEnd => exact near

theorem Stands.piece (stands : Stands w s) (found : Of w needle o)
    (behind : o.start.offset < s.stop) : ∃ middle right,
      w.text = o.start.before.reverse ++ (middle ++ right) ∧
        Text.size o.start.before.reverse + Text.size middle = s.stop := by
  obtain ⟨left, right, whole, size⟩ := stands.place
  have start := found.before_size
  obtain ⟨middle, rfl, -⟩ := Text.halves_of_le (found.text.symm.trans whole) (by omega)
  rw [Text.size_append] at size
  exact ⟨middle, right, by rw [whole, List.append_assoc], size⟩

theorem piece_inLine {middle right : Text} (found : Of w needle o) (inLine : needle.inLine = true)
    (whole : w.text = o.start.before.reverse ++ (middle ++ right))
    (near : Text.size o.start.before.reverse + Text.size middle ≤ w.lineContentStop o.stop) :
    middle.inLine = true := by
  obtain ⟨content, tail, parts, kept, -, size⟩ := content_parts found
  rw [parts, List.append_assoc] at whole
  have same := List.append_cancel_left whole
  rw [← size, Text.size_append] at near
  obtain ⟨rest, parts, -⟩ := Text.halves_of_le same.symm (Nat.le_of_add_le_add_left near)
  have all : (needle ++ content).inLine = true := by
    rw [Text.inLine, List.all_append]
    exact Bool.and_eq_true_iff.mpr ⟨inLine, kept⟩
  rw [parts, Text.inLine, List.all_append] at all
  exact (Bool.and_eq_true_iff.mp all).1

def Forward (marks : List Mark) : Prop :=
  ∀ m ∈ marks, ∀ c ∈ marks, m.role.opens = true → m.span.start ≤ c.span.start →
    m.span.start < c.span.stop

theorem Forward.tail {marks : List Mark} (forward : Forward (m :: marks)) : Forward marks :=
  fun n member c listed =>
    forward n (List.mem_cons_of_mem m member) c (List.mem_cons_of_mem m listed)

theorem sorted_forward (full : ∀ e ∈ l, e.1.Full) (inLine : ∀ e ∈ l, e.1.inLine = true)
    (w : Window) : Forward (sorted w l) := by
  intro m opening c closing opens ordered
  obtain ⟨e, held, -, from_e⟩ := mem_sorted full opening
  obtain ⟨f, -, -, from_f⟩ := mem_sorted full closing
  exact from_e.behind from_f (Delimiter.keepsToLine_of_inLine (inLine e held)) opens ordered

end Mark

namespace Delimiters

variable {l : Delimiters} {w : Window} {m : Mark} {marks rest a b : List Mark}
  {passing seek : Nat}

def swept (l : Delimiters) (w : Window) : List (Nat × Span) :=
  regionsFrom l w 0 w.start.offset (Mark.sorted w l)

-- It starts with an even number of backslashes before it, and on one line unless allowed to span.
structure Region (w : Window) (d : Delimiter) (s : Span) : Prop where
  held : s.start < s.stop
  within : w.span.Covers s
  opens : ∃ o ∈ d.openings w, o.start.isEscaped = false ∧ o.start.offset = s.start
  pieces : ∃ left middle right, Text.split? w.text s = some (left, middle, right) ∧
    d.opening <+: middle ++ right ∧ (left.reverse.takeWhile (· == '\\')).length % 2 = 0 ∧
      (d.spansLines = false → middle.inLine = true)

-- A mark that nothing closes: none of the marks behind it does, wherever it stands among them.
def Unclosed (l : Delimiters) (w : Window) (m : Mark) : Prop :=
  m ∈ Mark.sorted w l ∧ ∀ before behind, Mark.sorted w l = before ++ m :: behind →
    Mark.close? m.delimiter (reach l w m) 0 behind = none

theorem mem_front (parts : a ++ m :: b = marks ++ rest) (shorter : a.length < marks.length) :
    m ∈ marks := by
  have place := congrArg (·[a.length]?) parts
  simp only [List.getElem?_append_left shorter, List.getElem?_append_right (Nat.le_refl _),
    Nat.sub_self, List.getElem?_cons_zero] at place
  exact List.mem_of_getElem? place.symm

-- Of every opening mark not passed yet: a region holds the place, or nothing closes the mark.
theorem regionsFrom_tries (ordered : Mark.Ordered marks) (forward : Mark.Forward marks)
    (parts : marks = a ++ m :: b) (opens : m.role.opens = true) (late : seek ≤ m.span.start)
    (reached : passing ≤ a.length) :
    (∃ r ∈ regionsFrom l w passing seek marks,
      r.2.start ≤ m.span.start ∧ m.span.start < r.2.stop) ∨
    Mark.close? m.delimiter (reach l w m) 0 b = none := by
  induction a generalizing marks passing seek with
  | nil =>
    subst parts
    obtain rfl := Nat.le_zero.mp reached
    rw [List.nil_append, regionsFrom_opened opens late]
    cases found : Mark.close? m.delimiter (reach l w m) 0 b with
    | none => exact .inr rfl
    | some closed =>
      obtain ⟨listed, -, -⟩ := Mark.close?_found found
      have above := (List.pairwise_cons.mp ordered).1 closed.2 listed
      have upper := forward m (by simp) closed.2 (by simp [listed]) opens above
      exact .inl ⟨_, List.mem_cons_self .., Nat.le_refl _, upper⟩
  | cons first a ih =>
    subst parts
    rw [List.cons_append] at ordered forward ⊢
    obtain ⟨above, others⟩ := List.pairwise_cons.mp ordered
    have later := forward.tail
    cases passing with
    | succ left =>
      rw [regionsFrom]
      exact ih others later rfl late (Nat.le_of_lt_succ reached)
    | zero =>
      rcases idle_or_opens first seek with idle | ⟨opens', late'⟩
      · rw [regionsFrom_idle idle]
        exact ih others later rfl late (Nat.zero_le _)
      · rw [regionsFrom_opened opens' late']
        cases found : Mark.close? first.delimiter (reach l w first) 0 (a ++ m :: b) with
        | none => exact ih others later rfl late (Nat.zero_le _)
        | some closed =>
          obtain ⟨between, closing⟩ := closed
          rcases Nat.lt_or_ge m.span.start closing.span.stop with inside | outside
          · exact .inl ⟨_, List.mem_cons_self .., above m (by simp), inside⟩
          · -- No mark that is passed over stands outside of the region.
            obtain ⟨x, y, inner, rfl, -, -⟩ := Mark.close?_parts found
            have passed : x.length ≤ a.length := by
              refine Nat.le_of_not_lt fun shorter => ?_
              have member := mem_front inner shorter
              rw [inner] at others later
              have ahead := (List.pairwise_append.mp others).2.2 m member closing (by simp)
              have upper := later m (by simp [member]) closing (by simp) opens ahead
              omega
            rcases ih others later rfl outside passed with ⟨r, listed, said⟩ | nothing
            · exact .inl ⟨r, List.mem_cons_of_mem _ listed, said⟩
            · exact .inr nothing

theorem reach_content {e : Delimiter × Category} (listed : l[m.delimiter]? = some e)
    (single : e.1.spansLines = false) : reach l w m ≤ m.contentStop := by
  unfold reach
  rw [listed]
  simp only [single, Bool.false_eq_true, if_false]
  exact Nat.min_le_left _ _

section Sweep

variable (full : ∀ e ∈ l, e.1.Full) (inLine : ∀ e ∈ l, e.1.inLine = true)

include full inLine

theorem swept_region {r : Nat × Span} (member : r ∈ l.swept w) :
    ∃ e, l[r.1]? = some e ∧ Region w e.1 r.2 := by
  obtain ⟨m, c, ⟨opening, closing, opens, -, -, ordered, near, rfl⟩⟩ := regionsFrom_marked member
  have held := Mark.sorted_forward full inLine w m opening c closing opens ordered
  have stands := Mark.sorted_stands full inLine closing
  have last := Mark.sorted_stop full closing (Nat.le_trans near (reach_within l w m))
  obtain ⟨i, e, listed, o, candidate, plain, rfl⟩ := (Mark.sorted_opening_iff opens).mp opening
  have own := List.mem_of_getElem? listed
  have occurs := Delimiter.openings_of (full e own) candidate
  obtain ⟨middle, right, whole, size⟩ := stands.piece occurs held
  refine ⟨e, listed, held, ⟨occurs.start_le, last⟩, ⟨o, candidate, plain, rfl⟩,
    o.start.before.reverse, middle, right, ?_, ?_, ?_, fun single => ?_⟩
  · exact Text.split?_exact.mpr ⟨whole, occurs.before_size, size⟩
  · have same := List.append_cancel_left (whole.symm.trans occurs.text)
    exact ⟨_, same.symm⟩
  · rw [List.reverse_reverse]
    simpa [Cursor.isEscaped] using plain
  · have content := reach_content (m := .ofOccurrence w i e.1.openingRole o) (w := w) listed single
    have stop := stands.stop_content occurs (Nat.le_trans near content)
    exact Mark.piece_inLine occurs (Delimiter.opening_inLine (inLine e own)) whole
      (Nat.le_trans (Nat.le_of_eq size) stop)

theorem regions_swept (w : Window) : List.Forall₂
    (fun r s => ∃ e, l[s.1]? = some e ∧ r = (e.2, s.2) ∧ Region w e.1 s.2)
    (l.regions w) (l.swept w) := by
  have each : ∀ s ∈ l.swept w, ∃ e, l[s.1]? = some e ∧ Region w e.1 s.2 :=
    fun s member => swept_region full inLine member
  have same : l.regions w = (l.swept w).filterMap fun s => (l[s.1]?).map fun e => (e.2, s.2) := rfl
  rw [same]
  generalize l.swept w = found at each
  induction found with
  | nil => exact .nil
  | cons s rest ih =>
    obtain ⟨e, listed, region⟩ := each s (by simp)
    rw [List.filterMap_cons, listed]
    exact .cons ⟨e, listed, rfl, region⟩ (ih fun s member => each s (by simp [member]))

theorem outside_unclosed {i : Nat} {e : Delimiter × Category} {o : Occurrence}
    (listed : l[i]? = some e) (candidate : o ∈ e.1.openings w) (plain : o.start.isEscaped = false)
    (outside : ∀ r ∈ l.regions w, ¬ r.2.holds o.start.offset = true) :
    Unclosed l w (.ofOccurrence w i e.1.openingRole o) := by
  have member := List.mem_of_getElem? listed
  have opens : (Mark.ofOccurrence w i e.1.openingRole o).role.opens = true :=
    Delimiter.openingRole_opens e.1
  have opening : Mark.ofOccurrence w i e.1.openingRole o ∈ Mark.sorted w l :=
    (Mark.sorted_opening_iff opens).mpr ⟨i, e, listed, o, candidate, plain, rfl⟩
  have late := (Delimiter.openings_of (full e member) candidate).start_le
  refine ⟨opening, fun before behind parts => ?_⟩
  rcases regionsFrom_tries (l := l) (w := w) (Mark.sorted_ordered w l)
    (Mark.sorted_forward full inLine w) parts opens late (Nat.zero_le _) with
    ⟨s, swept, above, below⟩ | nothing
  · exfalso
    obtain ⟨k, named⟩ := regions_named full s swept
    exact outside _ (List.mem_filterMap.mpr ⟨s, swept, named⟩) (Span.holds_iff.mpr ⟨above, below⟩)
  · exact nothing

-- The regions of a sweep whose delimiters keep to their lines are those of its delimiters, in
-- order and apart from one another, and whatever opens outside of them has nothing to close it.
theorem regions_maximal (w : Window) :
    List.Forall₂ (fun r s => ∃ e, l[s.1]? = some e ∧ r = (e.2, s.2) ∧ Region w e.1 s.2)
      (l.regions w) (l.swept w) ∧
    Apart (l.regions w) ∧
    ∀ i e, l[i]? = some e → ∀ o ∈ e.1.openings w, o.start.isEscaped = false →
      (∀ r ∈ l.regions w, ¬ r.2.holds o.start.offset = true) →
        Unclosed l w (.ofOccurrence w i e.1.openingRole o) := by
  refine ⟨regions_swept full inLine w, regions_apart full w, ?_⟩
  intro i e listed o candidate plain outside
  exact outside_unclosed full inLine listed candidate plain outside

end Sweep

def sweptMarks : Delimiters :=
  [(.inline ['/', '/'] false, .comments), (.pair ['"'] ['"'] false, .strings),
    (.pair ['/', '*'] ['*', '/'] true, .comments)]

def quotedMarks : Text :=
  ['"', '/', '/', '"', ' ', '/', '/', ' ', '"', '\n', '/', '*', ' ', '"', '*', '/', '"', '/', '*']

-- Within a region nothing opens, and nothing closes the last quote.
theorem regions_maximal_quoted :
    sweptMarks.regions (.whole quotedMarks) =
      [(.strings, ⟨0, 4⟩), (.comments, ⟨5, 9⟩), (.comments, ⟨10, 16⟩)] ∧
    Region (.whole quotedMarks) (.pair ['/', '*'] ['*', '/'] true) ⟨10, 16⟩ ∧
    ∃ o, o.start.offset = 16 ∧ Unclosed sweptMarks (.whole quotedMarks)
      (.ofOccurrence (.whole quotedMarks) 1 .both o) := by
  have found : sweptMarks.regions (.whole quotedMarks) =
      [(.strings, ⟨0, 4⟩), (.comments, ⟨5, 9⟩), (.comments, ⟨10, 16⟩)] := by decide +kernel
  have swept : sweptMarks.swept (.whole quotedMarks) =
      [(1, ⟨0, 4⟩), (0, ⟨5, 9⟩), (2, ⟨10, 16⟩)] := by decide +kernel
  obtain ⟨each, -, maximal⟩ := regions_maximal (l := sweptMarks)
    (by simp [sweptMarks, Delimiter.Full]) (by decide) (.whole quotedMarks)
  refine ⟨found, ?_, ?_⟩
  · rw [found, swept] at each
    obtain _ | ⟨-, _ | ⟨-, _ | ⟨⟨e, listed, -, region⟩, -⟩⟩⟩ := each
    cases listed
    exact region
  · have quote : ∃ o ∈ Occurrence.all (.whole quotedMarks) ['"'],
        o.start.offset = 16 ∧ o.start.isEscaped = false := by decide +kernel
    obtain ⟨o, listed, start, plain⟩ := quote
    refine ⟨o, start, maximal 1 (.pair ['"'] ['"'] false, .strings) rfl o listed plain ?_⟩
    rw [found, start]
    decide

end Delimiters

end Rules

end LiveHighlight
