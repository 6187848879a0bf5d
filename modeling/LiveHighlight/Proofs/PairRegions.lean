import LiveHighlight.Proofs.PairSearch

-- The search for begin and end matches with patterns. What it finds in a stretch of text is what
-- the checked search over offsets comes to.

namespace LiveHighlight

namespace Cursor

variable {c d : Cursor} {ok : Char → Prop}

theorem Leads.same_text (leads : Leads ok c d) : d.text = c.text := by
  obtain ⟨u, -, rest, before⟩ := leads
  simp [text, rest, before]

theorem boundary (c : Cursor) : Text.Boundary c.text c.offset :=
  ⟨c.before.reverse, c.rest, rfl, by rw [Text.size_reverse, c.offset_eq]⟩

theorem text_size (c : Cursor) : Text.size c.text = c.offset + Text.size c.rest := by
  rw [text, Text.size_append, Text.size_reverse, c.offset_eq]

theorem cut?_text (c : Cursor) (b : Text) :
    Text.cut? (c.text ++ b) c.offset = some (c.before.reverse, c.rest ++ b) := by
  rw [text, List.append_assoc, c.offset_eq, ← Text.size_reverse, Text.cut?_append]

theorem between_halves (c : Cursor) : between c.before.reverse c.rest = c :=
  same_place (List.reverse_reverse _) rfl

theorem between_text (left right : Text) : (between left right).text = left ++ right := by
  simp [text, between]

theorem between_offset (left right : Text) : (between left right).offset = Text.size left := rfl

end Cursor

namespace Text

theorem lineContent_least (x b : Text) :
    min (size (lineContent (x ++ b)).1) (size x) = size (lineContent x).1 := by
  have least : (lineContent x).1 <+: x := ⟨_, lineContent_parts x⟩
  simp only [lineContent, List.span_eq_takeWhile_dropWhile] at least ⊢
  rw [List.takeWhile_append]
  split
  · rename_i all
    have whole := least.eq_of_length all
    rw [whole, size_append]
    omega
  · obtain ⟨rest, parts⟩ := least
    have sizes := congrArg size parts
    rw [size_append] at sizes
    omega

end Text

namespace Pattern

variable {p : Pattern} {c : Cursor} {m : Match} {h : Text} {n : Nat}

def hit (h : Text) (found : p.find? c = some m) (text : c.text = h) (place : c.offset = n) :
    Hit h n where
  toSpan := m.span
  ahead := place ▸ (find?_reached found).2.1.offset
  ordered := (matchAt?_ahead (find?_reached found).1).offset
  starts := text ▸ (find?_reached found).2.1.same_text ▸ m.start.boundary
  stops := by
    obtain ⟨there, leads, -⟩ := find?_reached found
    have same := (leads.trans (matchAt?_ahead there)).same_text
    rw [← text, ← same]
    exact m.stop.boundary

def search (p : Pattern) : Search where
  at? h n :=
    match halves : Text.cut? h n with
    | none => none
    | some (left, right) =>
      match found : p.find? (.between left right) with
      | none => none
      | some _ =>
        some (hit h found ((Cursor.between_text left right).trans (Text.cut?_parts halves).1.symm)
          ((Cursor.between_offset left right).trans (Text.cut?_parts halves).2))

theorem between_cut {left right : Text} (text : c.text = h) (place : c.offset = n)
    (halves : Text.cut? h n = some (left, right)) : .between left right = c := by
  have cut := c.cut?_text []
  rw [List.append_nil, List.append_nil, text, place, halves] at cut
  cases cut
  exact c.between_halves

theorem search_exact (text : c.text = h) (place : c.offset = n) :
    (p.search.at? h n).map (·.toSpan) = (p.find? c).map Match.span := by
  unfold search
  dsimp only
  split
  · rename_i failed
    have cut := c.cut?_text []
    rw [List.append_nil, text, place, failed] at cut
    cases cut
  · rename_i left right halves
    rw [← between_cut text place halves]
    split
    · rename_i missed
      rw [missed]
      rfl
    · rename_i m found
      exact (congrArg (Option.map Match.span) found).symm

theorem search_none (text : c.text = h) (place : c.offset = n) (missed : p.find? c = none) :
    p.search.at? h n = none := by
  have same := search_exact (p := p) text place
  rwa [missed, Option.map_none, Option.map_eq_none_iff] at same

theorem search_some (text : c.text = h) (place : c.offset = n) (found : p.find? c = some m) :
    ∃ hit, p.search.at? h n = some hit ∧ hit.toSpan = m.span := by
  have same := search_exact (p := p) text place
  rwa [found, Option.map_some, Option.map_eq_some_iff] at same

theorem search_answers {s : Span} (answers : p.search.Answers s) :
    ∃ m, p.matchAt? m.start = some m ∧ m.span = s := by
  obtain ⟨h, n, hit, answered, rfl⟩ := answers
  obtain ⟨left, right, rfl, rfl⟩ : Text.Boundary h n := by
    rw [Text.boundary_iff]
    by_contra failed
    rw [Option.not_isSome_iff_eq_none] at failed
    unfold search at answered
    dsimp only at answered
    split at answered
    · cases answered
    · rename_i halves
      rw [failed] at halves
      cases halves
  have same := search_exact (p := p) (Cursor.between_text left right) rfl
  rw [Cursor.between_offset, answered, Option.map_some, eq_comm, Option.map_eq_some_iff] at same
  obtain ⟨m, found, span⟩ := same
  exact ⟨m, (find?_reached found).1, span⟩

end Pattern

namespace PairSearch

open Rules Pattern

variable {p q : Pattern} {multiline escapable : Bool} {t h b : Text} {c d : Cursor} {m : Match}
  {n bound : Nat}

def ofPatterns (p q : Pattern) (multiline escapable : Bool) : PairSearch :=
  ⟨p.search, q.search, multiline, escapable⟩

theorem escapedAt?_text (whole : t = c.text ++ b) : t.escapedAt? c.offset = some c.isEscaped := by
  rw [Text.escapedAt?, whole, c.cut?_text]
  simp [Cursor.isEscaped]

theorem find?_text {search : Search} (text : c.text = h) (place : c.offset = n) :
    search.find? h n = some (search.at? h n) :=
  find?_placed (text ▸ place ▸ c.boundary)

-- The match that a search over offsets answers and the one that the search from the place finds.
structure Same (p : Pattern) (t h b : Text) (hit : Hit h n) (m : Match) : Prop where
  whole : t = h ++ b
  matched : p.matchAt? m.start = some m
  text : m.start.text = h
  span : hit.toSpan = m.span

namespace Same

variable {hit : Hit h n}

theorem start (same : Same p t h b hit m) : hit.start = m.start.offset :=
  congrArg Span.start same.span

theorem stop (same : Same p t h b hit m) : hit.stop = m.stop.offset := congrArg Span.stop same.span

theorem kind (same : Same p t h b hit m) : hit.isEmpty = m.isEmpty :=
  (congrArg Span.isEmpty same.span).trans (span_isEmpty same.matched)

theorem ends (same : Same p t h b hit m) : m.stop.text = h :=
  (matchAt?_ahead same.matched).same_text.trans same.text

theorem escaped (same : Same p t h b hit m) : t.escapedAt? hit.start = some m.start.isEscaped := by
  rw [same.start]
  exact escapedAt?_text (same.text ▸ same.whole)

theorem cut (same : Same p t h b hit m) :
    Text.cut? t m.stop.offset = some (m.stop.before.reverse, m.stop.rest ++ b) := by
  rw [same.whole, ← same.ends, m.stop.cut?_text]

theorem size (same : Same p t h b hit m) :
    Text.size h = m.stop.offset + Text.size m.stop.rest := by
  rw [← same.ends, m.stop.text_size]

end Same

theorem answer_same (whole : t = h ++ b) (text : c.text = h) (place : c.offset = n)
    (found : p.find? c = some m) :
    ∃ hit : Hit h n, p.search.at? h n = some hit ∧ Same p t h b hit m := by
  obtain ⟨hit, answered, span⟩ := search_some text place found
  obtain ⟨there, leads, -⟩ := find?_reached found
  exact ⟨hit, answered, whole, there, leads.same_text.trans text, span⟩

theorem closing?_follows (p q : Pattern) (multiline escapable : Bool) (whole : t = h ++ b)
    (text : c.text = h) (place : c.offset = n) (enough : c.rest.length < bound) :
    ∃ o, (ofPatterns p q multiline escapable).closing? t h n = some o ∧
      o.map Span.stop = (Finder.closing? q escapable bound c).map Cursor.offset := by
  induction bound generalizing c n with
  | zero => omega
  | succ bound ih =>
    rw [closing?, find?_text text place, Finder.closing?, ofPatterns]
    cases found : q.find? c with
    | none =>
      rw [search_none text place found]
      exact ⟨none, rfl, rfl⟩
    | some m =>
      obtain ⟨hit, answered, same⟩ := answer_same whole text place found
      rw [answered]
      dsimp only
      rw [same.kind, same.escaped]
      by_cases asked : (escapable && !m.isEmpty) = true
      · rw [if_pos asked, asked, Bool.true_and]
        cases escaped : m.start.isEscaped with
        | true =>
          have moved : m.isEmpty = false := by simpa using (Bool.and_eq_true_iff.mp asked).2
          have fewer := shorter_of_moved same.matched moved
          have first := (find?_reached found).2.1.length_le
          exact ih same.ends same.stop.symm (by omega)
        | false => exact ⟨_, rfl, congrArg some same.stop⟩
      · rw [if_neg asked, Bool.eq_false_iff.mpr asked, Bool.false_and]
        exact ⟨_, rfl, congrArg some same.stop⟩

section Partner

variable {hit : Hit h n}

theorem behind_follows (same : Same p t h b hit m) (d_next : Finder.behindBegin? m = some d) :
    d.text = h ∧ d.offset = hit.behind t ∧ (m.isEmpty = true → m.stop.offset < d.offset) := by
  unfold Finder.behindBegin? at d_next
  unfold Hit.behind
  rw [same.kind, same.stop]
  split at d_next
  · rename_i still
    cases rest : m.stop.rest with
    | nil =>
      rw [Scan.next?_last rest] at d_next
      cases d_next
    | cons x rest' =>
      rw [Scan.next?_rest rest] at d_next
      cases d_next
      have leads : m.stop.Leads (fun _ => True) (m.stop.advance x rest') :=
        Cursor.leads_advance rest trivial
      refine ⟨leads.same_text.trans same.ends, ?_, fun _ => ?_⟩
      · rw [if_pos still, Text.stepFrom, same.cut, rest]
        exact Nat.add_comm _ _
      · exact Nat.lt_add_of_pos_left x.utf8Size_pos
  · rename_i moved
    cases d_next
    exact ⟨same.ends, (if_neg moved).symm, fun still => absurd still moved⟩

theorem behind_past (same : Same p t h b hit m) (last : Finder.behindBegin? m = none) :
    Text.size h < hit.behind t := by
  have size := same.size
  have later := t.stepFrom_later m.stop.offset
  unfold Finder.behindBegin? at last
  unfold Hit.behind
  rw [same.kind, same.stop]
  split at last
  · rename_i still
    cases rest : m.stop.rest with
    | nil =>
      rw [rest] at size
      rw [if_pos still, size]
      exact later
    | cons x rest' =>
      rw [Scan.next?_rest rest] at last
      cases last
  · cases last

theorem limit?_follows (same : Same p t h b hit m) :
    (ofPatterns p q multiline escapable).limit? t h m.stop.offset =
      some (m.stop.offset + Text.size (Finder.reachOf multiline m).1) := by
  unfold limit? Finder.reachOf ofPatterns
  cases multiline with
  | true => exact congrArg some same.size
  | false =>
    simp only [Text.contentStop?, same.cut, Option.map_some, Bool.false_eq_true, if_false]
    rw [same.size, Nat.add_min_add_left, Text.lineContent_least]

theorem partner?_far (same : Same p t h b hit m)
    (far : m.stop.offset + Text.size (Finder.reachOf multiline m).1 < hit.behind t) :
    (ofPatterns p q multiline escapable).partner? t h n hit = some none := by
  rw [partner?, same.stop, limit?_follows same, Option.bind_eq_bind, Option.bind_some]
  exact if_pos far

theorem partner?_follows (q : Pattern) (escapable : Bool) (same : Same p t h b hit m)
    (d_next : Finder.behindBegin? m = some d)
    (full : ¬ (m.isEmpty && (Finder.reachOf multiline m).1.isEmpty) = true) {inside : Text}
    (held : inside = if m.isEmpty then (Finder.reachOf multiline m).1.drop 1
      else (Finder.reachOf multiline m).1) :
    ∃ o, (ofPatterns p q multiline escapable).partner? t h n hit = some o ∧
      o.map Span.stop = (Finder.closing? q escapable (inside.length + 1)
        (d.withRest inside)).map Cursor.offset := by
  obtain ⟨text, place, -⟩ := behind_follows same d_next
  have parts := Finder.inside_parts multiline d_next full
  rw [← held] at parts
  have all := Finder.reachOf_parts multiline m
  have front : h = (d.withRest inside).text ++ (Finder.reachOf multiline m).2 := by
    rw [← text, Cursor.text, Cursor.text, List.append_assoc]
    exact congrArg _ parts.symm
  have size := congrArg Text.size front
  rw [same.size, ← all, Text.size_append, Text.size_append, Cursor.text_size] at size
  have start : (d.withRest inside).offset = hit.behind t := place
  have cut : t.upTo? (m.stop.offset + Text.size (Finder.reachOf multiline m).1) =
      some (d.withRest inside).text := by
    refine Text.upTo?_exact.mpr ⟨(Finder.reachOf multiline m).2 ++ b, ?_, ?_⟩
    · rw [same.whole, front, List.append_assoc]
    · rw [Cursor.text_size]
      omega
  obtain ⟨o, closes, stops⟩ := closing?_follows p q multiline escapable
    (same.whole.trans (by rw [front, List.append_assoc])) rfl start
    (Nat.lt_succ_self inside.length)
  refine ⟨o, ?_, stops⟩
  rw [partner?, same.stop, limit?_follows same, Option.bind_eq_bind, Option.bind_some,
    if_neg (by omega), cut]
  exact closes

end Partner

inductive Follows (h : Text) : Move Span → Turn n → Prop where
  | past {next : Nat} {later : n < next} (far : Text.size h < next) :
      Follows h .on (.on next later)
  | on {d : Cursor} {next : Nat} {later : n < next} (text : d.text = h) (place : d.offset = next) :
      Follows h (.jump d []) (.on next later)
  | take {d : Cursor} {f : PairMatch} {next : Nat} {later : n < next} (text : d.text = h)
      (place : d.offset = next) : Follows h (.jump d [f.region]) (.take f next later)

theorem follows_taken {hit : Hit h n} {inside beyond : Text} {stop : Cursor} {k : Span}
    {later : n < max k.stop (hit.behind t)} (same : Same p t h b hit m) (text : d.text = h)
    (place : d.offset = hit.behind t) (parts : inside ++ beyond = d.rest)
    (closes : Finder.closing? q escapable bound (d.withRest inside) = some stop)
    (ends : k.stop = stop.offset) :
    Follows h (.jump (stop.withRest (stop.rest ++ beyond)) [⟨m.start.offset, stop.offset⟩])
      (.take ⟨hit.toSpan, k⟩ (max k.stop (hit.behind t)) later) := by
  have leads := Finder.closing?_ahead _ closes
  have ahead : d.offset ≤ stop.offset := leads.offset
  have whole : stop.text ++ beyond = h := by
    rw [leads.same_text, ← text, Cursor.text, Cursor.text, List.append_assoc]
    exact congrArg _ parts
  have region : (⟨m.start.offset, stop.offset⟩ : Span) =
      (⟨hit.toSpan, k⟩ : PairMatch).region := by
    rw [PairMatch.region, same.start, ends]
  rw [region]
  refine .take ?_ ?_
  · rw [← whole]
    simp [Cursor.text, Cursor.withRest]
  · rw [ends, Nat.max_eq_left (by omega)]
    rfl

theorem turn?_follows (q : Pattern) (multiline escapable : Bool) (whole : t = h ++ b)
    (text : c.text = h) (place : c.offset = n) (found : p.find? c = some m) : ∃ turn,
      (ofPatterns p q multiline escapable).turn? t h n = some turn ∧
        Follows h (Finder.afterBegin q multiline escapable m) turn := by
  obtain ⟨hit, answered, same⟩ := answer_same whole text place found
  have asks : (ofPatterns p q multiline escapable).first.at? h n = some hit := answered
  have told : (ofPatterns p q multiline escapable).escaped? t hit.start =
      some (escapable && m.start.isEscaped) := by
    rw [escaped?, same.escaped, ofPatterns]
    cases escapable <;> rfl
  rw [turn?, find?_text text place, asks]
  simp only [Option.bind_eq_bind, Option.bind_some, told]
  unfold Finder.afterBegin
  have reach := congrArg Text.size (Finder.reachOf_parts multiline m)
  rw [Text.size_append] at reach
  have size := same.size
  cases d_next : Finder.behindBegin? m with
  | none =>
    have far := behind_past same d_next
    rw [partner?_far same (by omega)]
    cases escapable && m.start.isEscaped with
    | true => exact ⟨_, rfl, .past far⟩
    | false => exact ⟨_, rfl, .past far⟩
  | some d =>
    obtain ⟨text, place, moved⟩ := behind_follows same d_next
    dsimp only
    cases escapable && m.start.isEscaped with
    | true => exact ⟨_, rfl, .on text place⟩
    | false =>
      simp only [Bool.false_eq_true, if_false]
      by_cases nothing : (m.isEmpty && (Finder.reachOf multiline m).1.isEmpty) = true
      · obtain ⟨still, content⟩ := Bool.and_eq_true_iff.mp nothing
        have later := moved still
        have none_left : Text.size (Finder.reachOf multiline m).1 = 0 := by
          rw [List.isEmpty_iff.mp content]
          rfl
        rw [partner?_far same (by omega), if_pos nothing]
        exact ⟨_, rfl, .on text place⟩
      · rw [if_neg nothing]
        obtain ⟨o, partner, stops⟩ := partner?_follows q escapable same d_next nothing rfl
        have parts := Finder.inside_parts multiline d_next nothing
        rw [partner]
        generalize (if m.isEmpty = true then List.drop 1 (Finder.reachOf multiline m).1
          else (Finder.reachOf multiline m).1) = inside at stops parts
        cases closes : Finder.closing? q escapable (inside.length + 1) (d.withRest inside) with
        | none =>
          rw [closes, Option.map_none, Option.map_eq_none_iff] at stops
          rw [stops]
          exact ⟨_, rfl, .on text place⟩
        | some stop =>
          rw [closes, Option.map_some, Option.map_eq_some_iff] at stops
          obtain ⟨k, rfl, ends⟩ := stops
          exact ⟨_, rfl, follows_taken same text place parts closes ends⟩

theorem regionsFrom?_follows (whole : t = h ++ b) (text : c.text = h) (place : c.offset = n)
    (enough : c.rest.length < bound) {l : List PairMatch}
    (found : (ofPatterns p q multiline escapable).regionsFrom? t h n = some l) :
    Finder.beginEndFrom p q multiline escapable bound c = l.map PairMatch.region := by
  induction bound generalizing c n l with
  | zero => omega
  | succ bound ih =>
    have size := c.text_size
    rw [text, place] at size
    rw [regionsFrom?] at found
    by_cases last : c.rest = []
    · rw [last] at size
      rw [if_neg (by rw [size]; exact Nat.lt_irrefl _)] at found
      cases found
      simp [Finder.beginEndFrom, last]
    · have held : Text.size c.rest ≠ 0 := fun nothing => last (Text.size_eq_zero.mp nothing)
      rw [if_pos (by omega)] at found
      cases opening : p.find? c with
      | none =>
        rw [turn?, find?_text text place, ofPatterns, search_none text place opening] at found
        cases found
        have more : c.rest.isEmpty = false := by simpa using last
        simp [Finder.beginEndFrom, more, opening]
      | some m =>
        obtain ⟨there, leads, -⟩ := find?_reached opening
        have onward := leads.length_le
        obtain ⟨turn, told, follows⟩ := turn?_follows q multiline escapable whole text place
          opening
        rw [told] at found
        rw [Finder.beginEndFrom_step bound last opening]
        generalize moves : Finder.afterBegin q multiline escapable m = move at follows
        cases follows with
        | past far =>
          dsimp only at found
          rw [regionsFrom?, if_neg (by omega)] at found
          cases found
          rfl
        | on text' place' =>
          have fewer := (Finder.afterBegin_ahead there moves).2.1
          exact ih text' place' (by omega) found
        | take text' place' =>
          have fewer := (Finder.afterBegin_ahead there moves).2.1
          obtain ⟨k, others, rfl⟩ := Option.map_eq_some_iff.mp found
          dsimp only
          rw [ih text' place' (by omega) others]
          rfl

def ofFinder? : Finder → Option PairSearch
  | .pattern _ _ => none
  | .beginEnd p q multiline escapable => some (ofPatterns p q multiline escapable)

theorem spans_regions {r : PairSearch} {e : Finder} {s : Span} {w : Window} {l : List PairMatch}
    (searched : ofFinder? e = some r) (window : Window.of? t s = some w)
    (found : r.regions? t s = some l) : e.spans w = l.map PairMatch.region := by
  cases e with
  | pattern p spansLines => cases searched
  | beginEnd p q multiline escapable =>
    cases searched
    obtain ⟨left, middle, right, whole, start, stop, rfl⟩ := Window.of?_exact.mp window
    have front : (Cursor.between left middle).text = left ++ middle := Cursor.between_text _ _
    have cut : t.upTo? s.stop = some (left ++ middle) :=
      Text.upTo?_exact.mpr ⟨right, by rw [whole, List.append_assoc], by rw [Text.size_append, stop]⟩
    rw [regions?, cut] at found
    exact regionsFrom?_follows (by rw [whole, List.append_assoc]) front start
      (Nat.lt_succ_self _) found

theorem closing_held {r : PairSearch} {rule : HighlightRule} {e : Finder}
    (compiled : Finder.ofRule? rule = .ok (some e)) (searched : ofFinder? e = some r)
    (asked : r.escapable = true) {k : Span} (answer : r.last.Answers k) : k.isEmpty = false := by
  have plain : ∀ {closing : Text}, rule.end? = some closing →
      (Finder.plainPattern closing rule.ignoreCase).search.Answers k → k.isEmpty = false := by
    intro closing ends answer
    have held : closing ≠ [] := by simpa using (Option.filter_eq_some_iff.mp ends).2
    obtain ⟨m, found, rfl⟩ := search_answers answer
    exact (span_isEmpty found).trans (literal_moves held found)
  unfold Finder.ofRule? at compiled
  split at compiled
  · cases compiled
  · split at compiled
    · split at compiled
      · cases compiled
      · split at compiled
        · cases compiled
        · cases compiled
          cases searched
          cases asked
    · generalize readPattern rule.beginString rule.ignoreCase rule.isMultiline = read at compiled
      cases read with
      | error refused => cases compiled
      | ok p =>
        cases compiled
        cases searched
    · rename_i ends
      cases compiled
      cases searched
      exact plain ends answer
    · cases compiled

-- Whatever begin and end matches a search is given, it comes to an end without a failing cut, and
-- its regions hold something, lie in order and keep to their line unless the rule spans lines. End
-- matches that hold something are not escaped where that is minded.
theorem regions_formed (r : PairSearch) (t : Text) (s : Span) (starts : Text.Boundary t s.start)
    (stops : Text.Boundary t s.stop) :
    ∃ l, r.regions? t s = some l ∧ l.Pairwise Before ∧ (∀ f ∈ l, r.Finds t s f) ∧
      ∀ e, ofFinder? e = some r →
        (∀ w, Window.of? t s = some w → e.spans w = l.map PairMatch.region) ∧
        ∀ rule, Finder.ofRule? rule = .ok (some e) → r.escapable = true → ∀ f ∈ l,
          t.escapedAt? f.opening.start = some false ∧
            t.escapedAt? f.closing.start = some false := by
  obtain ⟨l, found, parted, each⟩ := regions?_total (r := r) starts stops
  refine ⟨l, found, parted, each, fun e searched => ⟨fun w window => ?_, ?_⟩⟩
  · exact spans_regions searched window found
  · intro rule compiled asked f listed
    have finds := each f listed
    have held := closing_held compiled searched asked finds.answers.2
    refine ⟨finds.openingPlain asked, (finds.closingPlain asked).resolve_left ?_⟩
    rw [held]
    exact Bool.false_ne_true

theorem regions_formed_quoted :
    let t : Text := ['é', '"', 'a', '\\', '"', 'b', '"']
    let rule : HighlightRule := { beginString := ['"'], endString := some ['"'] }
    let quote := Finder.plainPattern ['"'] false
    Text.Boundary t 2 ∧ Text.Boundary t 8 ∧
      Finder.ofRule? rule = .ok (some (.beginEnd quote quote false true)) ∧
      ∃ l, (ofPatterns quote quote false true).regions? t ⟨2, 8⟩ = some l ∧
        l.map PairMatch.region = [⟨2, 8⟩] ∧
        ∀ f ∈ l, t.escapedAt? f.opening.start = some false ∧
          t.escapedAt? f.closing.start = some false := by
  intro t rule quote
  have starts : Text.Boundary t 2 := by decide
  have stops : Text.Boundary t 8 := by decide
  have compiled : Finder.ofRule? rule = .ok (some (.beginEnd quote quote false true)) := rfl
  obtain ⟨l, found, -, -, rules⟩ :=
    regions_formed (ofPatterns quote quote false true) t ⟨2, 8⟩ starts stops
  obtain ⟨spans, plain⟩ := rules (.beginEnd quote quote false true) rfl
  have window : Window.of? t ⟨2, 8⟩ =
      some ⟨.between ['é'] ['"', 'a', '\\', '"', 'b', '"'], []⟩ := rfl
  refine ⟨starts, stops, compiled, l, found, ?_, plain rule compiled rfl⟩
  rw [← spans _ window]
  decide

theorem look_still {look : Look} (found : (Pattern.ofExpr (.look look) []).matchAt? c = some m) :
    m.start.offset = m.stop.offset := by
  change (if look.holds c then Step.finish c [] [] else (none, [])).1.map _ = some m at found
  split at found
  · cases found
    rfl
  · cases found

-- An end match that holds nothing is taken where it stands, behind a backslash as elsewhere.
theorem regions_closed_escaped : ¬ ∀ (r : PairSearch) (t : Text) (s : Span),
    Text.Boundary t s.start → Text.Boundary t s.stop → r.escapable = true →
      ∀ l, r.regions? t s = some l → ∀ f ∈ l, t.escapedAt? f.opening.start = some false ∧
        t.escapedAt? f.closing.start = some false := by
  intro claim
  let t : Text := ['"', 'a', '\\']
  let quote := Finder.plainPattern ['"'] false
  let lineEnd := Pattern.ofExpr (.look .lineEnd) []
  let r := ofPatterns quote lineEnd false true
  have starts : Text.Boundary t 0 := by decide
  have stops : Text.Boundary t 3 := by decide
  obtain ⟨l, found, -, each⟩ := regions?_total (r := r) (s := ⟨0, 3⟩) starts stops
  have window : Window.of? t ⟨0, 3⟩ = some ⟨.between [] t, []⟩ := rfl
  have spans : (Finder.beginEnd quote lineEnd false true).spans ⟨.between [] t, []⟩ = [⟨0, 3⟩] := by
    decide
  rw [spans_regions (r := r) rfl window found] at spans
  obtain ⟨f, rest, rfl, region, -⟩ := List.map_eq_cons_iff.mp spans
  have plain := (claim r t ⟨0, 3⟩ starts stops rfl _ found f (List.mem_cons_self ..)).2
  obtain ⟨m, matched, span⟩ := search_answers (each f (List.mem_cons_self ..)).answers.2
  have stop : f.closing.stop = 3 := congrArg Span.stop region
  have start : f.closing.start = 3 := by
    rw [← stop, ← span]
    exact look_still matched
  have escaped : t.escapedAt? 3 = some true := by decide
  rw [start, escaped] at plain
  cases plain

end PairSearch

end LiveHighlight
