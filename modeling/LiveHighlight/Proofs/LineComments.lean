import LiveHighlight.Proofs.SweptRegions

-- Comments that run to the end of their line. A delimiter of one byte has to stand alone; a single
-- character of several bytes is taken wherever it stands.

namespace LiveHighlight.Rules

namespace Occurrence

variable {needle t : Text} {c d : Cursor} {o : Occurrence} {w : Window}

theorem indented?_blanks {rest : Text} (at_rest : c.rest = rest)
    (found : indented? needle c rest = some o) :
    c.Leads (fun x => isIndent x = true) o.start := by
  induction rest generalizing c with
  | nil =>
    have same : c.withRest [] = c := Cursor.same_place rfl at_rest.symm
    rw [indented?, same] at found
    obtain ⟨behind, -, rfl⟩ := here?_exact.mp found
    exact c.leads_self
  | cons x rest ih =>
    have same : c.withRest (x :: rest) = c := Cursor.same_place rfl at_rest.symm
    have stays : here? needle c = some o → c.Leads (fun x => isIndent x = true) o.start := by
      intro here
      obtain ⟨behind, -, rfl⟩ := here?_exact.mp here
      exact c.leads_self
    rw [indented?, same] at found
    split at found
    · rename_i blank
      rcases Option.or_eq_some_iff.mp found with deeper | ⟨-, here⟩
      · exact (Cursor.leads_advance at_rest blank).trans (ih rfl deeper)
      · exact stays here
    · exact stays found

theorem leading_line (held : needle ≠ []) (member : o ∈ leading w needle) :
    ∃ d, w.start.Leads (fun _ => True) d ∧ w.isLineStart d = true ∧
      d.Leads (fun x => isIndent x = true) o.start := by
  obtain ⟨d, leads, found⟩ := found_all (leadingAt?_ahead w held) (leading_scan w held) o member
  unfold leadingAt? at found
  split at found
  · rename_i starts
    exact ⟨d, leads, starts, indented?_blanks rfl found⟩
  · cases found

theorem startsAt_whole (leads : (Window.whole t).start.Leads (fun _ => True) d)
    (starts : (Window.whole t).isLineStart d = true) :
    LineIndex.StartsAt t d.offset ∧
      ∀ x, d.before.head? = some x → Unicode.isBlank x = true := by
  obtain ⟨u, -, rest, before⟩ := leads
  have front : d.before = u.reverse := before.trans (List.append_nil _)
  have between : LineIndex.startsBetween d.before.head? d.rest.head? = true := by
    rcases Bool.or_eq_true_iff.mp starts with first | line
    · have nothing : u = [] := by
        rw [beq_iff_eq, d.offset_eq, front, Text.size_reverse] at first
        exact Text.size_eq_zero.mp first
      rw [front, nothing]
      rfl
    · exact line
  refine ⟨⟨u, d.rest, rest, ?_, ?_⟩, fun x head => ?_⟩
  · rw [d.offset_eq, front, Text.size_reverse]
  · rwa [front, List.head?_reverse] at between
  · rw [head] at between
    unfold LineIndex.startsBetween at between
    split at between
    · rename_i nothing
      cases nothing
    · rename_i feed
      cases feed
      decide
    · rename_i carriage
      cases carriage
      decide
    · cases between

end Occurrence

namespace Mark

open Occurrence (Of)

variable {index limit depth n : Nat} {m : Mark} {l : List Mark} {w : Window} {o o' : Occurrence}
  {needle needle' : Text}

theorem lineEnd_same (found : Of w needle o) (inLine : needle.inLine = true)
    (found' : Of w needle' o') (behind : o.start.offset ≤ w.lineContentStop o'.stop)
    (near : w.lineContentStop o'.stop ≤ w.lineContentStop o.stop) :
    w.lineContentStop o'.stop = w.lineContentStop o.stop := by
  refine Nat.le_antisymm near (Nat.le_of_not_lt fun shorter => ?_)
  obtain ⟨content, tail, whole, kept, -, size⟩ := content_parts found
  obtain ⟨content', tail', whole', -, ended, size'⟩ := content_parts found'
  have start := found.before_size
  obtain ⟨between, held, front, rfl⟩ :=
    Text.halves_of_lt (whole'.symm.trans whole) (by rw [size, size']; exact shorter)
  obtain ⟨z, front', inner⟩ := Text.halves_of_le front (by rw [size']; omega)
  obtain ⟨x, between, rfl⟩ := List.exists_cons_of_ne_nil held
  have member : x ∈ needle ++ content := by
    rw [inner]
    simp
  have all : (needle ++ content).inLine = true := by
    rw [Text.inLine, List.all_append]
    exact Bool.and_eq_true_iff.mpr ⟨inLine, kept⟩
  have within := List.all_eq_true.mp all x member
  simp [ended x rfl] at within

theorem closing_lineEnd {l : Delimiters} {opening : Text} {leading : Bool} {k : Category}
    (full : ∀ e ∈ l, e.1.Full) (member : m ∈ sorted w l)
    (listed : l[m.delimiter]? = some (.inline opening leading, k))
    (closes : m.role.closes = true) :
    ∃ o, Of w opening o ∧ m.span = ⟨w.lineContentStop o.stop, w.lineContentStop o.stop⟩ := by
  obtain ⟨i, e, at_i, own⟩ := mem_sorted_iff.mp member
  have index := (stems (full e (List.mem_of_getElem? at_i)) own).delimiter
  rw [index, at_i] at listed
  cases listed
  obtain ⟨o, candidate, marked⟩ := List.mem_flatMap.mp own
  have occurs : Of w opening o := Delimiter.openings_of (d := .inline opening leading)
    (full _ (List.mem_of_getElem? at_i)) candidate
  rcases mem_ofInline marked with rfl | rfl
  · cases closes
  · exact ⟨o, occurs, rfl⟩

end Mark

structure LineComment (t opening : Text) (leading : Bool) (s : Span)
    (left content behind : Text) : Prop where
  whole : t = left ++ (opening ++ (content ++ behind))
  span : s = ⟨Text.size left, Text.size left + Text.size (opening ++ content)⟩
  content_inLine : content.inLine = true
  ended : ∀ x, behind.head? = some x → Text.isTerminator x = true
  plain : (left.reverse.takeWhile (· == '\\')).length % 2 = 0
  -- Of the single characters this holds those of one byte only, unless they lead their line.
  alone : leading = true ∨ Text.size opening = 1 →
    ∀ x, left.getLast? = some x → Unicode.isBlank x = true
  leads : leading = true → ∃ lines blanks, left = lines ++ blanks ∧
    (∀ x ∈ blanks, x = ' ' ∨ x = '\t') ∧ Text.size lines ∈ (LineIndex.ofText t).starts

theorem whole_text (t : Text) : (Window.whole t).text = t := List.append_nil _

namespace Delimiter

variable {t opening : Text} {leading : Bool} {o : Occurrence}

theorem openings_alone (held : opening ≠ [])
    (candidate : o ∈ (inline opening leading).openings (.whole t))
    (asked : leading = true ∨ Text.size opening = 1) :
    ∀ x, o.start.before.head? = some x → Unicode.isBlank x = true := by
  obtain ⟨listed, alone⟩ := List.mem_filter.mp candidate
  intro x head
  rcases asked with rfl | single
  · obtain ⟨d, leads, starts, blanks⟩ := Occurrence.leading_line held listed
    obtain ⟨u, taken, -, before⟩ := blanks
    rw [before, List.head?_append] at head
    cases last : u.reverse.head? with
    | none =>
      rw [last, Option.none_or] at head
      exact (Occurrence.startsAt_whole leads starts).2 x head
    | some y =>
      rw [last] at head
      cases head
      have member : x ∈ u := List.mem_reverse.mp (List.mem_of_head? last)
      have indent := taken x member
      simp only [Occurrence.isIndent, Bool.or_eq_true, beq_iff_eq] at indent
      rcases indent with rfl | rfl
      · decide
      · decide
  · have occurs := openings_of (d := .inline opening leading) held candidate
    have length : o.span.length = 1 := by
      simp only [Occurrence.span, Span.length, occurs.stop]
      change o.start.offset + Text.size opening - o.start.offset = 1
      omega
    simpa [Occurrence.standsAlone, length, head] using alone

theorem openings_lead (held : opening ≠ [])
    (candidate : o ∈ (inline opening true).openings (.whole t)) :
    ∃ lines blanks, o.start.before.reverse = lines ++ blanks ∧
      (∀ x ∈ blanks, x = ' ' ∨ x = '\t') ∧ Text.size lines ∈ (LineIndex.ofText t).starts := by
  obtain ⟨d, leads, starts, blanks⟩ :=
    Occurrence.leading_line held (List.mem_filter.mp candidate).1
  obtain ⟨u, taken, -, before⟩ := blanks
  refine ⟨d.before.reverse, u, by simp [before], fun x member => ?_, ?_⟩
  · simpa [Occurrence.isIndent] using taken x member
  · rw [Text.size_reverse, ← d.offset_eq]
    exact LineIndex.mem_ofText.mpr (Occurrence.startsAt_whole leads starts).1

end Delimiter

namespace Delimiters

variable {l : Delimiters} {t opening : Text} {leading : Bool} {k : Category} {i : Nat} {s : Span}

theorem inline_comment (full : ∀ e ∈ l, e.1.Full)
    (listed : l[i]? = some (.inline opening leading, k)) (inLine : opening.inLine = true)
    (member : (i, s) ∈ l.swept (.whole t)) :
    ∃ left content behind, LineComment t opening leading s left content behind := by
  have held : opening ≠ [] := full _ (List.mem_of_getElem? listed)
  obtain ⟨m, c, ⟨opening_mark, closing_mark, opens, closes, own, ordered, near, same⟩⟩ :=
    regionsFrom_marked member
  obtain ⟨rfl, rfl⟩ := Prod.mk.inj same
  obtain ⟨o', occurs', ends⟩ :=
    Mark.closing_lineEnd full closing_mark (by rw [own, listed]) closes
  have content := reach_content (w := .whole t) listed rfl
  obtain ⟨j, e, at_j, o, candidate, plain, rfl⟩ := (Mark.sorted_opening_iff opens).mp opening_mark
  cases at_j.symm.trans listed
  have occurs := Delimiter.openings_of (d := .inline opening leading) held candidate
  rw [ends] at ordered near
  have stop := Mark.lineEnd_same occurs inLine occurs' ordered (Nat.le_trans near content)
  obtain ⟨content, behind, whole, kept, ended, size⟩ := Mark.content_parts occurs
  have start := occurs.before_size
  rw [whole_text, List.append_assoc, List.append_assoc] at whole
  refine ⟨o.start.before.reverse, content, behind, whole, ?_, kept, ended, ?_, ?_, ?_⟩
  · rw [ends, stop, ← size, Text.size_append, start]
    rfl
  · rw [List.reverse_reverse]
    simpa [Cursor.isEscaped] using plain
  · rw [List.getLast?_reverse]
    exact Delimiter.openings_alone held candidate
  · rintro rfl
    exact Delimiter.openings_lead held candidate

-- A single character of several bytes opens right behind any other character.
theorem wide_glued {c x : Char} (k : Category) (wide : 1 < c.utf8Size) (differs : c ≠ x)
    (plain : x ≠ '\\') : swept [(.inline [c] false, k)] (.whole [x, c]) =
      [(0, ⟨x.utf8Size, x.utf8Size + c.utf8Size⟩)] := by
  let place := (Cursor.start [x, c]).advance x [c]
  have all : Occurrence.all (.whole [x, c]) [c] = [⟨place, place.past [c] []⟩] := by
    simp [place, Occurrence.all, Window.whole, Cursor.onward, Cursor.onwardFrom, Cursor.start,
      Occurrence.apart, Occurrence.here?, Text.strip?, Cursor.withRest, Cursor.advance, differs,
      Cursor.past, Text.size]
  have alone : Occurrence.standsAlone ⟨place, place.past [c] []⟩ = true := by
    simp [place, Occurrence.standsAlone, Occurrence.span, Span.length, Cursor.past, Text.size, wide]
  have unescaped : place.isEscaped = false := by
    simp [place, Cursor.isEscaped, Cursor.advance, Cursor.start, plain]
  have stop : (Window.whole [x, c]).lineContentStop (place.past [c] []) =
      x.utf8Size + c.utf8Size := by
    simp [place, Window.lineContentStop, Window.whole, Text.lineContent, Cursor.past,
      Cursor.advance, Cursor.start, Text.size, Nat.add_comm]
  have span : Occurrence.span ⟨place, place.past [c] []⟩ =
      ⟨x.utf8Size, x.utf8Size + c.utf8Size⟩ := by
    simp [place, Occurrence.span, Cursor.past, Cursor.advance, Cursor.start, Text.size,
      Nat.add_comm]
  have marks : Mark.ofDelimiter (.whole [x, c]) 0 (.inline [c] false) =
      [⟨0, .opening, ⟨x.utf8Size, x.utf8Size + c.utf8Size⟩, x.utf8Size + c.utf8Size⟩,
        ⟨0, .closing, ⟨x.utf8Size + c.utf8Size, x.utf8Size + c.utf8Size⟩,
          x.utf8Size + c.utf8Size⟩] := by
    simp [Mark.ofDelimiter, all, alone, Mark.ofInline, Mark.unescaped, unescaped,
      Mark.ofOccurrence, stop, span]
  have sorted : Mark.sorted (.whole [x, c]) [(.inline [c] false, k)] =
      Mark.ofDelimiter (.whole [x, c]) 0 (.inline [c] false) := by
    have first : x.utf8Size < x.utf8Size + c.utf8Size := by omega
    simp [Mark.sorted, Mark.ofDelimiters, marks, Order.sort, Order.place, Mark.le, first]
  have total : (Window.whole [x, c]).span.stop = x.utf8Size + c.utf8Size := by
    simp [Window.span, Window.whole, Window.body, Cursor.start, Text.size]
  have start : (Window.whole [x, c]).start.offset = 0 := rfl
  simp [swept, sorted, marks, regionsFrom, Role.opens, Role.closes, Mark.close?, reach, total,
    start, Delimiter.spansLines]

-- Every region of an inline delimiter goes from an unescaped occurrence to the end of its line. A
-- delimiter of one byte stands alone; a single character of several bytes need not.
theorem line_comments (full : ∀ e ∈ l, e.1.Full) (t : Text) :
    (∀ i opening leading k s, l[i]? = some (.inline opening leading, k) →
      opening.inLine = true → (i, s) ∈ l.swept (.whole t) →
        ∃ left content behind, LineComment t opening leading s left content behind) ∧
    ∀ (c x : Char) (k : Category), 1 < c.utf8Size → c ≠ x → x ≠ '\\' →
      swept [(.inline [c] false, k)] (.whole [x, c]) =
        [(0, ⟨x.utf8Size, x.utf8Size + c.utf8Size⟩)] := by
  refine ⟨?_, ?_⟩
  · intro i opening leading k s listed inLine member
    exact inline_comment full listed inLine member
  · intro c x k wide differs plain
    exact wide_glued k wide differs plain

def hashMarks : Delimiters := [(.pair ['"'] ['"'] false, .strings), (.inline ['#'] false, .comments)]

theorem line_comments_hash :
    hashMarks.swept (.whole ['"', '#', '"', ' ', 'a', '#', ' ', '#', 'b', '\n', 'c']) =
      [(0, ⟨0, 3⟩), (1, ⟨7, 9⟩)] ∧
    ∃ left content behind, LineComment ['"', '#', '"', ' ', 'a', '#', ' ', '#', 'b', '\n', 'c']
      ['#'] false ⟨7, 9⟩ left content behind := by
  have swept : hashMarks.swept (.whole ['"', '#', '"', ' ', 'a', '#', ' ', '#', 'b', '\n', 'c']) =
      [(0, ⟨0, 3⟩), (1, ⟨7, 9⟩)] := by decide +kernel
  obtain ⟨comments, -⟩ := line_comments (l := hashMarks) (by simp [hashMarks, Delimiter.Full])
    ['"', '#', '"', ' ', 'a', '#', ' ', '#', 'b', '\n', 'c']
  exact ⟨swept, comments 1 ['#'] false .comments ⟨7, 9⟩ rfl rfl (by simp [swept])⟩

-- A section sign right behind a letter opens a comment.
theorem line_comments_glued :
    ¬ ∀ (l : Delimiters) (t : Text) (i : Nat) (c : Char) (leading : Bool) (k : Category) (s : Span),
      (∀ e ∈ l, e.1.Full) → l[i]? = some (.inline [c] leading, k) →
        Text.isTerminator c = false → (i, s) ∈ l.swept (.whole t) →
          ∃ left content behind, LineComment t [c] leading s left content behind ∧
            ∀ x, left.getLast? = some x → Unicode.isBlank x = true := by
  intro claim
  have swept : swept [(.inline ['§'] false, .comments)] (.whole ['a', '§', 'b']) =
      [(0, ⟨1, 4⟩)] := by decide +kernel
  obtain ⟨left, content, behind, comment, alone⟩ :=
    claim [(.inline ['§'] false, .comments)] ['a', '§', 'b'] 0 '§' false .comments ⟨1, 4⟩
      (by simp [Delimiter.Full]) rfl (by decide) (by simp [swept])
  have size : Text.size ['a'] = Text.size left := congrArg Span.start comment.span
  obtain ⟨same, -⟩ := Text.halves_of_eq
    (comment.whole : ['a'] ++ ['§', 'b'] = _) size
  rw [← same] at alone
  exact absurd (alone 'a' rfl) (by decide)

end Delimiters

end LiveHighlight.Rules
