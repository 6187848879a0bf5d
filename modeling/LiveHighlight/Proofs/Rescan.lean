import LiveHighlight.Proofs.Compiled
import LiveHighlight.Proofs.FinderLines
import LiveHighlight.Proofs.LineWindows
import LiveHighlight.Proofs.MovedLines

-- A search of the lines around a span, against a search of the whole text of which only what
-- overlaps the span is kept.

namespace LiveHighlight

namespace Span

variable {f s : Span}

theorem overlaps_after (before : f.stop ≤ s.start) : f.overlaps s = false := by
  unfold overlaps
  split
  · simp only [Bool.and_eq_false_iff, decide_eq_false_iff_not]
    omega
  · simp only [Bool.and_eq_false_iff, decide_eq_false_iff_not]
    omega

theorem overlaps_ahead (ordered : s.start ≤ s.stop) (behind : s.stop < f.start) :
    f.overlaps s = false := by
  unfold overlaps
  split
  · simp only [Bool.and_eq_false_iff, decide_eq_false_iff_not]
    omega
  · simp only [Bool.and_eq_false_iff, decide_eq_false_iff_not]
    omega

theorem overlaps_next (held : s.start < s.stop) (behind : s.stop ≤ f.start) :
    f.overlaps s = false := by
  unfold overlaps isEmpty
  split
  · simp_all
    omega
  · simp only [Bool.and_eq_false_iff, decide_eq_false_iff_not]
    omega

theorem overlaps_start (meets : f.overlaps s = true) : s.start < f.stop := by
  apply Nat.lt_of_not_le
  intro before
  rw [overlaps_after before] at meets
  cases meets

end Span

namespace Rules

structure Linewise (search : Window → List (Category × Span)) : Prop where
  cut : ∀ {w : Window} {x y t : Text} {last : Char}, w.body = x ++ y → x = t ++ [last] →
    Text.isTerminator last = true → search w = search (w.front x y) ++ search (w.back x y)
  within : ∀ {w : Window}, ∀ f ∈ search w, w.span.start ≤ f.2.start ∧ f.2.stop ≤ w.span.stop
  moved : ∀ {w w' : Window}, w.Alike w' →
    List.Forall₂ (w.shared w').Same (search w) (search w')

namespace Linewise

variable {search : Window → List (Category × Span)} {t left middle right : Text} {s : Span}
  {keep : Category × Span → Bool}

theorem ofFinder {e : Finder} (k : Category) (kept : e.keepsToLine = true)
    (single : e.spansLines = false) : Linewise fun w => (e.spans w).map (k, ·) := by
  refine ⟨?_, ?_, ?_⟩
  · intro w x y t last body front ends
    rw [e.spans_cut kept single body front ends, List.map_append]
  · intro w f member
    obtain ⟨found, held, rfl⟩ := List.mem_map.mp member
    obtain ⟨start, -, stop⟩ := e.spans_within w found held
    exact ⟨start, stop⟩
  · intro w w' alike
    apply List.forall₂_map_left_iff.mpr
    apply List.forall₂_map_right_iff.mpr
    exact (e.spans_moved alike).imp fun _ _ shifted => ⟨rfl, shifted⟩

theorem ofDelimiters {l : Delimiters} (full : l.Full) (kept : ∀ e ∈ l, e.1.keepsToLine = true)
    (single : l.spansLines = false) : Linewise l.regions := by
  refine ⟨?_, ?_, ?_⟩
  · intro w x y t last body front ends
    exact Delimiters.regions_cut full kept single body front ends
  · intro w f member
    obtain ⟨start, -, stop⟩ := Delimiters.regions_within full member
    exact ⟨start, stop⟩
  · intro w w' alike
    exact Delimiters.regions_moved alike full kept

-- The lines before those of the span hold nothing that is kept, nor do those behind.
theorem narrow (lines : Linewise search) (lined : Lined t s left middle right)
    (before : ∀ f, f.2.stop ≤ Text.size left → keep f = false)
    (behind : ∀ f, middle ≠ [] → (s.clamp (Text.size t)).stop < Text.size left + Text.size middle →
      Text.size left + Text.size middle ≤ f.2.start → keep f = false) :
    (search (.whole t)).filter keep = (search ⟨.between left middle, right⟩).filter keep := by
  have forward : (search (.whole t)).filter keep =
      (search ⟨.between left (middle ++ right), []⟩).filter keep := by
    rcases lined.before with rfl | ⟨u, c, ended, last⟩
    · rw [lined.whole]
      rfl
    · have body : (Window.whole t).body = left ++ (middle ++ right) := lined.whole
      have place : (Window.whole t).back left (middle ++ right) =
          ⟨.between left (middle ++ right), []⟩ := by
        have same : (Cursor.start t).past left (middle ++ right) =
            .between left (middle ++ right) := Cursor.same_place (List.append_nil _) rfl
        rw [Window.back, ← same]
        rfl
      have front : ((search ((Window.whole t).front left (middle ++ right))).filter keep) = [] := by
        apply List.filter_eq_nil_iff.mpr
        intro f member
        have within := (lines.within f member).2
        have size : ((Window.whole t).front left (middle ++ right)).span.stop = Text.size left :=
          Nat.zero_add _
        rw [size] at within
        simp [before f within]
      rw [lines.cut body ended last, List.filter_append, front, place, List.nil_append]
  rw [forward]
  rcases lined.behind with rfl | ⟨held, ends, beyond⟩
  · rw [List.append_nil]
  · obtain nothing | ⟨u, c, ended, last⟩ := ends
    · exact absurd nothing held
    · let w : Window := ⟨.between left (middle ++ right), []⟩
      have place : w.front middle right = ⟨.between left middle, right⟩ := by
        simp only [Window.front, w, List.append_nil]
        rfl
      have back : (search (w.back middle right)).filter keep = [] := by
        apply List.filter_eq_nil_iff.mpr
        intro f member
        have first := (lines.within f member).1
        have size : (w.back middle right).span.start = Text.size left + Text.size middle :=
          Nat.add_comm _ _
        rw [size] at first
        simp [behind f held beyond first]
      rw [lines.cut (w := w) rfl ended last, List.filter_append, back, place, List.append_nil]

end Linewise

namespace RuleSet

variable {d : Definition} {r : RuleSet} {t left middle right : Text} {s wanted : Span}
  {keep : Category × Span → Bool}

def keepsToLines (r : RuleSet) : Bool :=
  r.finders.all (fun e => e.2.keepsToLine) && r.delimiters.all (fun e => e.1.keepsToLine)

theorem single_parts (compiled : r.Compiled) (single : r.spansLines = false) :
    (∀ e ∈ r.finders, e.2.spansLines = false) ∧ r.delimiters.spansLines = false := by
  have parts := compiled.spansLines.symm.trans single
  obtain ⟨finders, delimiters⟩ := Bool.or_eq_false_iff.mp parts
  exact ⟨fun e member => by simpa using List.any_eq_false.mp finders e member, delimiters⟩

theorem found_within (compiled : r.Compiled) (w : Window) :
    ∀ f ∈ r.found w, w.span.start ≤ f.2.start ∧ f.2.start < w.span.stop ∧
      f.2.stop ≤ w.span.stop := by
  intro f member
  rcases List.mem_append.mp member with search | sweep
  · obtain ⟨e, -, own⟩ := List.mem_flatMap.mp search
    obtain ⟨found, held, rfl⟩ := List.mem_map.mp own
    obtain ⟨start, more, stop⟩ := e.2.spans_within w found held
    exact ⟨start, Nat.lt_of_lt_of_le more stop, stop⟩
  · exact Delimiters.regions_within compiled.full sweep

def searches (r : RuleSet) : List (Window → List (Category × Span)) :=
  r.finders.map (fun e w => (e.2.spans w).map (e.1, ·)) ++ [r.delimiters.regions]

theorem found_searches (r : RuleSet) (w : Window) :
    r.found w = r.searches.flatMap fun search => search w := by
  simp [found, searches, List.flatMap_append, List.flatMap_map]

theorem searches_linewise (compiled : r.Compiled) (single : r.spansLines = false)
    (kept : r.keepsToLines = true) : ∀ search ∈ r.searches, Linewise search := by
  obtain ⟨finders, delimiters⟩ := Bool.and_eq_true_iff.mp kept
  obtain ⟨own_line, own_lines⟩ := single_parts compiled single
  intro search member
  rcases List.mem_append.mp member with one | sweep
  · obtain ⟨e, held, rfl⟩ := List.mem_map.mp one
    exact .ofFinder e.1 (List.all_eq_true.mp finders e held) (own_line e held)
  · cases List.mem_singleton.mp sweep
    exact .ofDelimiters compiled.full (List.all_eq_true.mp delimiters) own_lines

theorem window_whole (t : Text) : Window.of? t ⟨0, Text.size t⟩ = some (.whole t) := by
  have parts : Text.split? t ⟨0, Text.size t⟩ = some ([], t, []) :=
    Text.split?_exact.mpr ⟨by simp, rfl, Nat.zero_add _⟩
  rw [Window.of?, parts]
  rfl

theorem whole_span (t : Text) : (Window.whole t).span = ⟨0, Text.size t⟩ := by
  rw [Window.span, Span.mk.injEq]
  exact ⟨rfl, Nat.zero_add _⟩

theorem whole_overlaps {e : Finder} (member : s ∈ e.spans (.whole t)) :
    s.overlaps ⟨0, Text.size t⟩ = true := by
  have within := e.spans_within _ s member
  rw [whole_span] at within
  dsimp only at within
  have some_text : Span.isEmpty ⟨0, Text.size t⟩ = false := by
    simp only [Span.isEmpty, decide_eq_false_iff_not]
    omega
  simp only [Span.overlaps, some_text, Bool.false_eq_true, if_false, Bool.and_eq_true,
    decide_eq_true_eq]
  omega

theorem window_lined (lined : Lined t s left middle right) :
    Window.of? t (lineBounds t s) = some ⟨.between left middle, right⟩ := by
  have parts : Text.split? t (lineBounds t s) = some (left, middle, right) := by
    rw [lined.lines]
    exact Text.split?_exact.mpr ⟨lined.whole, rfl, rfl⟩
  rw [Window.of?, parts]
  rfl

theorem lineBounds_whole (t : Text) : lineBounds t ⟨0, Text.size t⟩ = ⟨0, Text.size t⟩ := by
  obtain ⟨left, middle, right, lined⟩ := lineBounds_parts t ⟨0, Text.size t⟩
  have whole := congrArg Text.size lined.whole
  have start := lined.start
  have stop := lined.stop
  simp only [Text.size_append, Span.clamp] at whole start stop
  rw [lined.lines, Span.mk.injEq]
  omega

theorem scanSpan_whole (r : RuleSet) (t : Text) :
    r.scanSpan t ⟨0, Text.size t⟩ = ⟨0, Text.size t⟩ := by
  unfold scanSpan
  split
  · rfl
  · exact lineBounds_whole t

structure Scanned (r : RuleSet) (t : Text) (wanted : Span) (w : Window) : Prop where
  window : Window.of? t (r.scanSpan t wanted) = some w
  span : r.scanSpan t wanted = w.span
  start : w.span.start ≤ wanted.start
  stop : w.span.stop ≤ Text.size t
  narrow : ∀ keep : Category × Span → Bool,
    (∀ f, f.2.stop ≤ w.span.start → keep f = false) →
    (∀ f, w.span.start < w.span.stop → wanted.stop < w.span.stop → w.span.stop ≤ f.2.start →
      keep f = false) →
    (r.found (.whole t)).filter keep = (r.found w).filter keep

theorem scanned (compiled : r.Compiled) (kept : r.spansLines = true ∨ r.keepsToLines = true)
    (t : Text) (wanted : Span) : ∃ w, Scanned r t wanted w := by
  cases mode : r.spansLines with
  | true =>
    refine ⟨.whole t, ?_, ?_, ?_, ?_, fun _ _ _ => rfl⟩
    · rw [scanSpan, mode, if_pos rfl, window_whole]
    · rw [scanSpan, mode, if_pos rfl, whole_span]
    · rw [whole_span]
      exact Nat.zero_le _
    · rw [whole_span]
  | false =>
    have inLines : r.keepsToLines = true := by
      rcases kept with spans | inLines
      · rw [mode] at spans
        cases spans
      · exact inLines
    obtain ⟨left, middle, right, lined⟩ := lineBounds_parts t wanted
    have size := congrArg Text.size lined.whole
    have start := lined.start
    simp only [Text.size_append, Span.clamp] at size start
    have scan : r.scanSpan t wanted = lineBounds t wanted := by
      rw [scanSpan, mode]
      rfl
    refine ⟨⟨.between left middle, right⟩, ?_, ?_, ?_, ?_, ?_⟩
    · rw [scan, window_lined lined]
    · rw [scan, lined.lines]
      rfl
    · change Text.size left ≤ wanted.start
      omega
    · change Text.size left + Text.size middle ≤ Text.size t
      omega
    · intro keep before behind
      rw [found_searches, found_searches, List.filter_flatMap, List.filter_flatMap]
      apply List.flatMap_congr
      intro search member
      apply (searches_linewise compiled mode inLines search member).narrow lined before
      intro f held beyond ahead
      have more := Text.size_pos held
      simp only [Span.clamp] at beyond
      refine behind f ?_ ?_ ahead
      · change Text.size left < Text.size left + Text.size middle
        omega
      · change wanted.stop < Text.size left + Text.size middle
        omega

theorem captures_scanned {w : Window} (scan : Scanned r t wanted w) :
    r.captures? t wanted =
      some (((r.found w).filter fun f => f.2.overlaps wanted).map fun f => ⟨f.1.name, f.2⟩) := by
  rw [captures?, scan.window]
  rfl

def every (r : RuleSet) (t : Text) : List (Category × Span) :=
  (r.found (.whole t)).filter fun f => f.2.overlaps ⟨0, Text.size t⟩

theorem captures_every (r : RuleSet) (t : Text) :
    r.captures? t ⟨0, Text.size t⟩ = some ((r.every t).map fun f => ⟨f.1.name, f.2⟩) := by
  rw [captures?, scanSpan_whole, window_whole]
  rfl

theorem every_filter (compiled : r.Compiled) (t : Text)
    (asked : ∀ f, keep f = true → 0 < f.2.stop) :
    (r.every t).filter keep = (r.found (.whole t)).filter keep := by
  rw [every, List.filter_filter]
  apply List.filter_congr
  intro f member
  have within := (found_within compiled (.whole t) f member).2.1
  rw [whole_span] at within
  dsimp only at within
  cases kept : keep f with
  | false => rfl
  | true =>
    have positive := asked f kept
    have some_text : Span.isEmpty ⟨0, Text.size t⟩ = false := by
      simp only [Span.isEmpty, decide_eq_false_iff_not]
      omega
    simp only [Span.overlaps, some_text, Bool.true_and, Bool.false_eq_true, if_false,
      Bool.and_eq_true, decide_eq_true_eq]
    omega

theorem window_span {w : Window} (window : Window.of? t s = some w) : w.span = s := by
  obtain ⟨⟨left, middle, right⟩, parts, rfl⟩ := Option.map_eq_some_iff.mp window
  obtain ⟨-, start, stop⟩ := Text.split?_exact.mp parts
  rw [Window.span, Span.mk.injEq]
  exact ⟨start, stop⟩

theorem scanSpan_reaches {n : Nat} (r : RuleSet) (within : n ≤ Text.size t) :
    n ≤ (r.scanSpan t ⟨n, n⟩).stop := by
  unfold scanSpan
  split
  · exact within
  · obtain ⟨left, middle, right, lined⟩ := lineBounds_parts t ⟨n, n⟩
    have stop := lined.stop
    simp only [Span.clamp] at stop
    rw [lined.lines]
    dsimp only
    omega

theorem captures_within {result : List Capture} (compiled : r.Compiled)
    (captured : r.captures? t wanted = some result) :
    ∀ c ∈ result, c.span.stop ≤ (r.scanSpan t wanted).stop := by
  obtain ⟨w, window, rfl⟩ := Option.map_eq_some_iff.mp captured
  intro c member
  obtain ⟨f, held, rfl⟩ := List.mem_map.mp member
  have within := (found_within compiled w f (List.mem_filter.mp held).1).2.2
  rwa [window_span window] at within

theorem captures_ordered (compiled : r.Compiled)
    (kept : r.spansLines = true ∨ r.keepsToLines = true) (ordered : wanted.start ≤ wanted.stop) :
    r.captures? t wanted =
      some (((r.every t).filter fun f => f.2.overlaps wanted).map fun f => ⟨f.1.name, f.2⟩) := by
  obtain ⟨w, scan⟩ := scanned compiled kept t wanted
  rw [captures_scanned scan, every_filter compiled t
    fun f meets => Nat.zero_lt_of_lt (Span.overlaps_start meets)]
  congr 2
  apply (scan.narrow _ _ _).symm
  · intro f before
    exact Span.overlaps_after (Nat.le_trans before scan.start)
  · intro f _ beyond behind
    exact Span.overlaps_ahead ordered (Nat.lt_of_lt_of_le beyond behind)

-- A reversed span asks for the byte at its start but has the lines of its stop searched.
theorem captures_reversed (compiled : r.Compiled)
    (kept : r.spansLines = true ∨ r.keepsToLines = true) (reversed : wanted.stop < wanted.start) :
    r.captures? t wanted =
      some (((r.every t).filter fun f =>
        f.2.overlaps wanted && f.2.overlaps (r.scanSpan t wanted)).map
          fun f => ⟨f.1.name, f.2⟩) := by
  obtain ⟨w, scan⟩ := scanned compiled kept t wanted
  have asked : ∀ f : Category × Span,
      (f.2.overlaps wanted && f.2.overlaps (r.scanSpan t wanted)) = true → 0 < f.2.stop := by
    intro f meets
    exact Nat.zero_lt_of_lt (Span.overlaps_start (Bool.and_eq_true_iff.mp meets).1)
  rw [captures_scanned scan, every_filter compiled t asked, scan.span,
    scan.narrow _ _ _]
  · congr 2
    apply List.filter_congr
    intro f member
    obtain ⟨start, more, -⟩ := found_within compiled w f member
    cases meets : f.2.overlaps wanted with
    | false => rfl
    | true =>
      have empty : wanted.isEmpty = true := by
        simp only [Span.isEmpty, decide_eq_true_eq]
        omega
      have held : w.span.isEmpty = false := by
        simp only [Span.isEmpty, decide_eq_false_iff_not]
        omega
      simp only [Span.overlaps, empty, if_true, Bool.and_eq_true, decide_eq_true_eq] at meets
      simp only [Span.overlaps, held, Bool.false_eq_true, if_false, Bool.true_and]
      symm
      simp only [Bool.and_eq_true, decide_eq_true_eq]
      omega
  · intro f before
    rw [Span.overlaps_after before, Bool.and_false]
  · intro f more _ behind
    rw [Span.overlaps_next more behind, Bool.and_false]

-- Searching the lines of a span finds what a search of the whole text finds there, if every rule
-- looks for what lies on one line; for all spans, only if no capture goes beyond its first line.
theorem captures_rescan (made : ofDefinition d = .ok r) (t : Text) :
    ∃ all, r.captures? t ⟨0, Text.size t⟩ = some all ∧
      (r.spansLines = true ∨ r.keepsToLines = true →
        (∀ wanted : Span, wanted.start ≤ wanted.stop →
          r.captures? t wanted = some (all.filter fun c => c.span.overlaps wanted)) ∧
        (∀ wanted : Span, wanted.stop < wanted.start →
          r.captures? t wanted = some (all.filter fun c =>
            c.span.overlaps wanted && c.span.overlaps (r.scanSpan t wanted)))) ∧
      ((∀ wanted : Span, wanted.start ≤ wanted.stop →
          r.captures? t wanted = some (all.filter fun c => c.span.overlaps wanted)) →
        ∀ c ∈ all, c.span.stop ≤ (r.scanSpan t ⟨c.span.start, c.span.start⟩).stop) := by
  have compiled := ofDefinition_compiled made
  refine ⟨_, captures_every r t, ?_, ?_⟩
  · intro kept
    refine ⟨?_, ?_⟩
    · intro wanted ordered
      rw [captures_ordered compiled kept ordered, List.filter_map]
      rfl
    · intro wanted reversed
      rw [captures_reversed compiled kept reversed, List.filter_map]
      rfl
  · intro agrees c member
    cases meets : c.span.overlaps ⟨c.span.start, c.span.start⟩ with
    | true =>
      have same := agrees ⟨c.span.start, c.span.start⟩ (Nat.le_refl _)
      exact captures_within compiled same c (List.mem_filter.mpr ⟨member, meets⟩)
    | false =>
      obtain ⟨f, held, rfl⟩ := List.mem_map.mp member
      have first := (found_within compiled (.whole t) f (List.mem_filter.mp held).1).2.1
      rw [whole_span] at first
      have empty : f.2.stop ≤ f.2.start := by simpa [Span.overlaps, Span.isEmpty] using meets
      exact Nat.le_trans empty (scanSpan_reaches r (Nat.le_of_lt first))

def quotes : Definition :=
  { highlights := [("strings", [{ beginString := ['"'], endString := some ['"'] }]), ("keywords", [.word ['i', 'f']])]
    inlines := [⟨['#'], false⟩] }

theorem captures_rescan_quotes :
    ∃ r, ofDefinition quotes = .ok r ∧
      ∃ all, r.captures? ['"', '#', '"', '\n', 'i', 'f', ' ', '#'] ⟨0, 8⟩ = some all ∧
        all = [⟨"keywords", ⟨4, 6⟩⟩, ⟨"strings", ⟨0, 3⟩⟩, ⟨"comments", ⟨7, 8⟩⟩] ∧
        r.captures? ['"', '#', '"', '\n', 'i', 'f', ' ', '#'] ⟨5, 5⟩ =
          some (all.filter fun c => c.span.overlaps ⟨5, 5⟩) := by
  cases made : ofDefinition quotes with
  | error e => cases made
  | ok r =>
    obtain ⟨all, whole, agrees, -⟩ := captures_rescan made ['"', '#', '"', '\n', 'i', 'f', ' ', '#']
    refine ⟨r, rfl, all, whole, ?_, ?_⟩
    · cases made
      cases whole
      rfl
    · have kept : r.keepsToLines = true := by
        cases made
        rfl
      exact (agrees (.inr kept)).1 ⟨5, 5⟩ (Nat.le_refl _)

-- A pattern that crosses lines and is not marked to do so.
def unmarked : Definition := { highlights := [("values", [.pattern ['a', '\n', 'b']])] }

theorem captures_cut_off : ¬ ∀ (d : Definition) (r : RuleSet) (t : Text) (wanted : Span),
    ofDefinition d = .ok r → wanted.start ≤ wanted.stop →
    ∃ all, r.captures? t ⟨0, Text.size t⟩ = some all ∧
      r.captures? t wanted = some (all.filter fun c => c.span.overlaps wanted) := by
  intro claim
  cases made : ofDefinition unmarked with
  | error e => cases made
  | ok r =>
    obtain ⟨all, whole, part⟩ := claim unmarked r ['a', '\n', 'b'] ⟨0, 1⟩ made (Nat.zero_le _)
    cases made
    cases whole
    cases part

end RuleSet

end Rules

end LiveHighlight
