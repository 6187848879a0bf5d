import LiveHighlight.Proofs.CheckedSearch
import LiveHighlight.Proofs.LinesAround
import LiveHighlight.Proofs.Titles

-- Line numbers of outline items. In what stands before an item a carriage return at the very end
-- counts, which is one too many if the item starts with the line feed that goes with it.

namespace LiveHighlight

namespace LineIndex

variable {left right : Text}

theorem row_at_end (t : Text) : (Text.pointOf t (Text.size t)).row + 1 = (ofText t).lineCount := by
  have all : (ofText t).starts.takeWhile (· ≤ Text.size t) = (ofText t).starts :=
    List.takeWhile_eq_self_iff.mpr fun n member => by
      simpa using startsAt_within (mem_ofText.mp member)
  have found := point?_exact t (Text.size t)
  simp only [point?, all] at found
  obtain ⟨_, -, same⟩ := Option.map_eq_some_iff.mp found
  rw [← same]
  exact Nat.succ_pred_eq_of_pos (Nat.zero_lt_succ _)

theorem cut_outside (apart : ¬ (left ++ right).InPair (Text.size left)) :
    (ofText left).lineCount = (Text.pointOf (left ++ right) (Text.size left)).row + 1 := by
  have same : Text.EndsAt (left ++ []) (Text.size left) ↔
      Text.EndsAt (left ++ right) (Text.size left) := by
    rw [Text.endsAt_seam, Text.endsAt_seam, and_congr_right_iff]
    rw [Text.inPair_seam] at apart
    intro held
    cases last : left.getLast? with
    | none => rfl
    | some x =>
      rw [startsBetween_some, startsBetween_some]
      simp_all
  have all : Text.endsUpTo (left ++ []) (Text.size left) =
      Text.endsUpTo (left ++ right) (Text.size left) :=
    Finset.Subset.antisymm (Text.ends_kept same.mp) (Text.ends_kept same.mpr)
  rw [List.append_nil] at all
  rw [← row_at_end, Text.pointOf, Text.pointOf, all]

theorem cut_inside (inside : (left ++ right).InPair (Text.size left)) :
    (ofText left).lineCount = (Text.pointOf (left ++ right) (Text.size left)).row + 2 := by
  obtain ⟨last, feed⟩ := Text.inPair_seam.mp inside
  have held : left ≠ [] := by
    rintro rfl
    cases last
  have ends : Text.EndsAt (left ++ []) (Text.size left) :=
    Text.endsAt_seam.mpr ⟨held, by rw [last]; rfl⟩
  have joined : ¬ Text.EndsAt (left ++ right) (Text.size left) := by
    rw [Text.endsAt_seam, last, feed]
    exact fun both => by cases both.2
  have row := congrArg Point.row (Text.pointOf_joined ends joined)
  rw [List.append_nil] at row
  rw [← row_at_end, row]

end LineIndex

namespace Rules.Outline

open Pattern

variable {o : Outline} {r : OutlineRule} {m : Match} {t : Text} {n k : Nat}

theorem lineNumber_cons (c : Char) (rest : Text) : lineNumber (c :: rest) =
    if LineIndex.startsBetween (some c) rest.head? then lineNumber rest + 1
    else lineNumber rest := by
  have same : (c == '\n' || (c == '\r' && rest.head? != some '\n')) =
      LineIndex.startsBetween (some c) rest.head? := by
    rw [Bool.eq_iff_iff, LineIndex.startsBetween_some]
    simp only [Text.isTerminator, Bool.or_eq_true, Bool.and_eq_true, beq_iff_eq, bne_iff_ne]
    by_cases carriage : c = '\r'
    · subst carriage
      simp
    · simp [carriage]
  rw [lineNumber, same]

theorem lineNumber_count (t : Text) : lineNumber t = (LineIndex.ofText t).lineCount := by
  suffices counted : ∀ base, lineNumber t = (LineIndex.startsBehind base t).length + 1 from
    counted 0
  intro base
  fun_induction LineIndex.startsBehind base t with
  | case1 => rfl
  | case2 base rest ih => simp [lineNumber, ih]
  | case3 base c rest unpaired next ends ih =>
    have starts : LineIndex.startsBetween (some c) rest.head? = true := by
      refine LineIndex.startsBetween_some.mpr ⟨ends, ?_⟩
      rintro ⟨rfl, feed⟩
      obtain ⟨more, rfl⟩ := List.head?_eq_some_iff.mp feed
      exact unpaired more rfl rfl
    rw [lineNumber_cons, if_pos starts, ih, List.length_cons]
  | case4 base c rest _ next goes ih =>
    have nothing : ¬ LineIndex.startsBetween (some c) rest.head? = true :=
      fun starts => goes (LineIndex.startsBetween_some.mp starts).1
    rw [lineNumber_cons, if_neg nothing, ih]

theorem decimal_injective (same : Text.decimal n = Text.decimal k) : n = k := by
  have values := congrArg (Nat.ofDigitChars 10 · 0) same
  simpa only [Text.decimal, Nat.ofDigitChars_ten_toDigits] using values

theorem decimal_onOneLine (n : Nat) : onOneLine (Text.decimal n) = Text.decimal n := by
  have plain : ∀ c ∈ Text.decimal n, Text.isTerminator c = false := by
    intro c member
    have digit : c.isDigit = true := Nat.isDigit_of_mem_toDigits (by decide) (by decide) member
    by_contra ends
    rw [Bool.not_eq_false, Text.isTerminator, Bool.or_eq_true, beq_iff_eq, beq_iff_eq] at ends
    rcases ends with rfl | rfl
    · cases digit
    · cases digit
  refine (List.map_congr_left fun c member => ?_).trans (List.map_id _)
  rw [plain c member]
  rfl

theorem title_number (kind : o.kind ≠ some .separator) (asks : o.template = lineMark) (m : Match) :
    onOneLine (o.title m) = number m := by
  have bare : Spelled o.pattern m (number m) ([] ++ (lineMark ++ []))
      (expand o.pattern m [] ++ (number m ++ expand o.pattern m [])) :=
    .numbered (by decide) .nil (.last (by decide))
  have nothing : expand o.pattern m [] = [] := rfl
  rw [title_expanded kind (by simp [asks, lineMark]), asks]
  rw [nothing, List.append_nil, List.nil_append, List.nil_append, List.append_nil] at bare
  exact (congrArg onOneLine (expand_spelled bare)).trans (decimal_onOneLine _)

theorem ofRule_parts (read : ofRule r = .ok o) : o.template = r.keyString ∧ o.kind = r.kind := by
  unfold ofRule at read
  cases pattern : readPattern r.beginString r.ignoreCase false with
  | error e =>
    rw [pattern] at read
    cases read
  | ok p =>
    rw [pattern] at read
    cases read
    exact ⟨rfl, rfl⟩

-- The title of such an item is the number of the line it starts on, counted from one, exactly if
-- it does not start between a carriage return and its line feed; there the number is one more.
theorem items_numbered (read : ofRule r = .ok o) (asks : r.keyString = lineMark)
    (kind : r.kind ≠ some .separator) (t : Text) :
    ∀ item ∈ o.items t, ∃ p, (LineIndex.ofText t).point? item.span.start = some p ∧
      (item.title = Text.decimal (1 + p.row) ↔ ¬ t.InPair item.span.start) ∧
      (t.InPair item.span.start → item.title = Text.decimal (2 + p.row)) := by
  obtain ⟨template, sort⟩ := ofRule_parts read
  intro item listed
  obtain ⟨m, member, rfl⟩ := List.mem_map.mp listed
  have whole : m.start.before.reverse ++ m.start.rest = t :=
    (mem_row (List.mem_filter.mp member).1).2.same_text
  have place : m.span.start = Text.size m.start.before.reverse := by
    rw [Text.size_reverse]
    exact m.start.offset_eq
  have title := title_number (sort ▸ kind) (template.trans asks) m
  refine ⟨_, LineIndex.point?_exact _ _, ?_⟩
  dsimp only
  rw [title, number, lineNumber_count, place, ← whole]
  refine ⟨⟨fun same inside => ?_, fun apart => ?_⟩, fun inside => ?_⟩
  · rw [LineIndex.cut_inside inside] at same
    have rows := decimal_injective same
    omega
  · rw [LineIndex.cut_outside apart, Nat.add_comm]
  · rw [LineIndex.cut_inside inside, Nat.add_comm]

theorem items_numbered_behind :
    let r : OutlineRule := { beginString := ['b'], keyString := lineMark }
    ∃ o, ofRule r = .ok o ∧ r.keyString = lineMark ∧ r.kind ≠ some .separator ∧
      o.items ['\r', '\n', 'b'] = [⟨['2'], ⟨2, 3⟩, none⟩] ∧
      ¬ Text.InPair ['\r', '\n', 'b'] 2 := by
  intro r
  have kind : r.kind ≠ some .separator := fun same => by cases same
  cases read : ofRule r with
  | error e => cases read
  | ok o =>
    have items : o.items ['\r', '\n', 'b'] = [⟨['2'], ⟨2, 3⟩, none⟩] := by
      cases read
      decide +kernel
    obtain ⟨p, found, title, -⟩ := items_numbered read rfl kind ['\r', '\n', 'b'] _
      (items ▸ List.mem_singleton.mpr rfl)
    cases found
    exact ⟨o, rfl, rfl, kind, items, title.mp rfl⟩

-- The line feed of a pair is on the first line, and its item has the number of the second.
theorem items_numbered_parted : ¬ ∀ (r : OutlineRule) (o : Outline) (t : Text),
    ofRule r = .ok o → r.keyString = lineMark → r.kind ≠ some .separator →
    ∀ item ∈ o.items t, ∃ p, (LineIndex.ofText t).point? item.span.start = some p ∧
      item.title = Text.decimal (1 + p.row) := by
  intro claim
  let r : OutlineRule := { beginString := ['\n'], keyString := lineMark }
  cases read : ofRule r with
  | error e => cases read
  | ok o =>
    have items : o.items ['\r', '\n'] = [⟨['2'], ⟨1, 2⟩, none⟩] := by
      cases read
      decide +kernel
    obtain ⟨p, found, title⟩ := claim r o ['\r', '\n'] read rfl (fun same => by cases same) _
      (items ▸ List.mem_singleton.mpr rfl)
    cases found
    revert title
    decide

end Rules.Outline

end LiveHighlight
