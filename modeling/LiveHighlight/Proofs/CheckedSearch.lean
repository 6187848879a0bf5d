import LiveHighlight.Proofs.ByteLines
import LiveHighlight.Proofs.CheckedSweep
import LiveHighlight.Proofs.Rescan

-- The search for what overlaps a span, over offsets and with every cut checked. Of the patterns
-- nothing is known but that their matches lie between places of the text they are given.

namespace LiveHighlight

namespace Span

variable {found wanted : Span}

-- Some byte of one span is wanted. A span that holds nothing wants the byte it stands at.
def Meets (found wanted : Span) : Prop := ∃ n, found.start ≤ n ∧ n < found.stop ∧
  (wanted.start ≤ n ∧ n < wanted.stop ∨ wanted.isEmpty = true ∧ n = wanted.start)

theorem meets_of_overlaps (held : found.start < found.stop)
    (overlaps : found.overlaps wanted = true) : found.Meets wanted := by
  unfold Span.overlaps at overlaps
  split at overlaps
  · rename_i nothing
    simp only [Bool.and_eq_true, decide_eq_true_eq] at overlaps
    exact ⟨wanted.start, overlaps.1, overlaps.2, .inr ⟨nothing, rfl⟩⟩
  · rename_i more
    simp only [Bool.and_eq_true, decide_eq_true_eq] at overlaps
    simp only [isEmpty, decide_eq_true_eq, Nat.not_le] at more
    exact ⟨max found.start wanted.start, by omega, by omega, .inl ⟨by omega, by omega⟩⟩

end Span

namespace Pattern

variable {p : Pattern} {c : Cursor} {m : Match} {t : Text} {last : Option Nat} {bound : Nat}

theorem findAfter?_reached (found : p.findAfter? c last = some m) :
    p.matchAt? m.start = some m ∧ c.Leads (fun _ => True) m.start := by
  unfold findAfter? at found
  split at found
  · cases found
  · rename_i k first
    split at found
    · split at found
      · cases found
      · rename_i d more
        obtain ⟨there, leads, -⟩ := find?_reached found
        exact ⟨there, (Scan.next?_leads more).trans leads⟩
    · cases found
      obtain ⟨there, leads, -⟩ := find?_reached first
      exact ⟨there, leads⟩

theorem mem_row (member : m ∈ p.row c last bound) :
    p.matchAt? m.start = some m ∧ c.Leads (fun _ => True) m.start := by
  induction bound generalizing c last with
  | zero => cases member
  | succ bound ih =>
    rw [row] at member
    split at member
    · cases member
    · rename_i k found
      obtain ⟨there, leads⟩ := findAfter?_reached found
      rcases List.mem_cons.mp member with rfl | later
      · exact ⟨there, leads⟩
      · obtain ⟨further, onward⟩ := ih later
        exact ⟨further, (leads.trans (matchAt?_ahead there)).trans onward⟩

def hitOf (member : m ∈ p.allMatches t) : Hit t 0 where
  toSpan := m.span
  ahead := Nat.zero_le _
  ordered := (matchAt?_ahead (mem_row member).1).offset
  starts := by
    have same : m.start.text = t := (mem_row member).2.same_text
    exact same ▸ m.start.boundary
  stops := by
    obtain ⟨there, leads⟩ := mem_row member
    have same : m.stop.text = t := (leads.trans (matchAt?_ahead there)).same_text
    exact same ▸ m.stop.boundary

def hits (p : Pattern) (t : Text) : List (Hit t 0) :=
  (p.allMatches t).attach.map fun m => hitOf m.2

theorem hits_spans (p : Pattern) (t : Text) :
    (p.hits t).map (·.toSpan) = (p.allMatches t).map Match.span := by
  rw [hits, List.map_map]
  exact List.attach_map_val (f := Match.span)

end Pattern

namespace Rules

inductive Probe where
  | each (all : (h : Text) → List (Hit h 0))
  | pairs (r : PairSearch)

namespace Probe

def spans? (t : Text) (s : Span) : Probe → Option (List Span)
  | .each all => do
    let within := s.upTo (Text.size t)
    let front ← t.upTo? within.stop
    let halves ← Text.cut? front within.start
    some (((all halves.2).map fun m => m.toSpan.shift within.start).filter fun m => !m.isEmpty)
  | .pairs r => (r.regions? t (s.upTo (Text.size t))).map fun l => l.map PairMatch.region

def ofFinder : Finder → Probe
  | .pattern p _ => .each p.hits
  | .beginEnd p q multiline escapable => .pairs (.ofPatterns p q multiline escapable)

variable {t : Text} {s : Span} {w : Window}

theorem each_exact (all : (h : Text) → List (Hit h 0)) (window : Window.of? t s = some w) :
    (each all).spans? t s = some (((all w.body).map fun m =>
      m.toSpan.shift w.start.offset).filter fun m => !m.isEmpty) := by
  obtain ⟨left, middle, right, whole, start, stop, rfl⟩ := Window.of?_exact.mp window
  have front : t.upTo? s.stop = some (left ++ middle) :=
    Text.upTo?_exact.mpr ⟨right, by rw [whole, List.append_assoc], by rw [Text.size_append, stop]⟩
  simp only [spans?, Window.of?_upTo window, Option.bind_eq_bind, front, Option.bind_some]
  rw [← start, Text.cut?_append]
  rfl

theorem spans?_total (e : Probe) (window : Window.of? t s = some w) :
    ∃ l, e.spans? t s = some l ∧ ∀ f ∈ l, Lies t (fun _ => False) f := by
  obtain ⟨left, middle, right, whole, start, stop, same⟩ := Window.of?_exact.mp window
  cases e with
  | each all =>
    refine ⟨_, each_exact all window, fun f member => ?_⟩
    obtain ⟨listed, held⟩ := List.mem_filter.mp member
    obtain ⟨m, -, rfl⟩ := List.mem_map.mp listed
    subst same
    have inner : ∀ {n}, Text.Boundary middle n → Text.Boundary t (Text.size left + n) := by
      rintro n ⟨a, b, parts, rfl⟩
      exact ⟨left ++ a, b ++ right, by simp [whole, parts], Text.size_append _ _⟩
    exact ⟨inner m.starts, inner m.stops, .inl (by simpa [Span.isEmpty] using held)⟩
  | pairs r =>
    have first : Text.Boundary t s.start := ⟨left, _, whole, start⟩
    have last : Text.Boundary t s.stop :=
      ⟨left ++ middle, right, by rw [whole, List.append_assoc], by rw [Text.size_append, stop]⟩
    obtain ⟨l, regions, -, finds⟩ := PairSearch.regions?_total (r := r) first last
    refine ⟨_, by rw [spans?, Window.of?_upTo window, regions]; rfl, fun f member => ?_⟩
    obtain ⟨k, listed, rfl⟩ := List.mem_map.mp member
    obtain ⟨placed, -, -, ends⟩ := (finds k listed).placed
    exact ⟨placed, ends, .inl (finds k listed).held⟩

theorem spans?_ofFinder (e : Finder) (window : Window.of? t s = some w) :
    (ofFinder e).spans? t s = some (e.spans w) := by
  cases e with
  | pattern p spansLines =>
    have shifted : (p.hits w.body).map (fun m => m.toSpan.shift w.start.offset) =
        (p.allMatches w.body).map fun m => m.span.shift w.start.offset := by
      have spans := congrArg (List.map fun s => s.shift w.start.offset) (p.hits_spans w.body)
      rw [List.map_map, List.map_map] at spans
      exact spans
    rw [ofFinder, each_exact p.hits window, shifted]
    rfl
  | beginEnd p q multiline escapable =>
    obtain ⟨l, regions, -⟩ := spans?_total (ofFinder (.beginEnd p q multiline escapable)) window
    obtain ⟨found, told, rfl⟩ := Option.map_eq_some_iff.mp regions
    rw [Window.of?_upTo window] at told
    rw [regions, PairSearch.spans_regions rfl window told]

end Probe

namespace Delimiters

open Occurrence

variable {opening : Text} {x : Char}

def twice (opening : Text) : Text := opening ++ ' ' :: opening

theorem twice_size (opening : Text) :
    Text.size (twice opening) = Text.size opening + 1 + Text.size opening := by
  have byte : Char.utf8Size ' ' = 1 := rfl
  rw [twice, Text.size_append, Text.size_cons, byte, Nat.add_assoc]

theorem twice_all (head : opening.head? = some x) (ends : Text.isTerminator x = true) :
    let first := Cursor.start (twice opening)
    let blank := first.past opening (' ' :: opening)
    let second := blank.advance ' ' opening
    Occurrence.all (.whole (twice opening)) opening =
      [⟨first, blank⟩, ⟨second, second.past opening []⟩] := by
  intro first blank second
  have held : opening ≠ [] := by
    rintro rfl
    cases head
  have at_first : here? opening first = some ⟨first, blank⟩ :=
    here?_exact.mpr ⟨_, rfl, rfl⟩
  have at_blank : here? opening blank = none := by
    refine Option.eq_none_iff_forall_ne_some.mpr fun o found => ?_
    obtain ⟨behind, same, -⟩ := here?_exact.mp found
    have parts := congrArg List.head? same
    rw [List.head?_append, head] at parts
    cases parts
    cases ends
  have at_second : here? opening second = some ⟨second, second.past opening []⟩ :=
    here?_exact.mpr ⟨[], (List.append_nil _).symm, rfl⟩
  have scan : Scan (find (here? opening)) first
      ([⟨first, blank⟩] ++ ([⟨second, second.past opening []⟩] ++ [])) :=
    .jump (by rw [find, at_first]) <| .skip (by rw [find, at_blank]) rfl <|
      .jump (by rw [find, at_second]) <| .stay (find_last (here?_ahead held) rfl) rfl
  exact (all_scan (.whole (twice opening)) held).unique scan

-- The second one opens where the first one's line ends, and the sweep closes it there.
theorem twice_regions (k : Category) (head : opening.head? = some x)
    (ends : Text.isTerminator x = true) :
    regions [(.inline opening false, k)] (.whole (twice opening)) =
      [(k, ⟨Text.size opening + 1, Text.size opening + 1⟩)] := by
  have all := twice_all head ends
  have positive : 0 < Text.size opening := Text.size_pos (by rintro rfl; cases head)
  have content : Text.lineContent (' ' :: opening) = ([' '], opening) := by
    obtain ⟨rest, rfl⟩ := List.head?_eq_some_iff.mp head
    have goes : Text.isTerminator ' ' = false := rfl
    simp [Text.lineContent, List.span_eq_takeWhile_dropWhile, ends, goes]
  have last : Text.lineContent [] = ([], []) := rfl
  have blank : Unicode.isBlank ' ' = true := by decide
  have byte : Char.utf8Size ' ' = 1 := rfl
  have total : (Window.whole (twice opening)).span.stop =
      Text.size opening + 1 + Text.size opening := by
    rw [RuleSet.whole_span, twice_size]
  have start : (Window.whole (twice opening)).start.offset = 0 := rfl
  have marks : Mark.ofDelimiter (.whole (twice opening)) 0 (.inline opening false) =
      [⟨0, .opening, ⟨0, Text.size opening⟩, Text.size opening + 1⟩,
        ⟨0, .closing, ⟨Text.size opening + 1, Text.size opening + 1⟩, Text.size opening + 1⟩,
        ⟨0, .opening, ⟨Text.size opening + 1, Text.size opening + 1 + Text.size opening⟩,
          Text.size opening + 1 + Text.size opening⟩,
        ⟨0, .closing, ⟨Text.size opening + 1 + Text.size opening,
          Text.size opening + 1 + Text.size opening⟩,
          Text.size opening + 1 + Text.size opening⟩] := by
    simp only [Mark.ofDelimiter, Bool.false_eq_true, if_false, all]
    simp [Occurrence.standsAlone, Occurrence.span, Cursor.past, Cursor.advance, Cursor.start,
      blank, byte, Mark.ofInline, Mark.unescaped, Mark.ofOccurrence, Cursor.isEscaped,
      Window.lineContentStop, Window.whole, content, last, Nat.add_comm, Nat.add_left_comm]
  generalize Text.size opening = n at positive marks total
  have behind : ¬ n + 1 + n < n + 1 := by omega
  have sorted : Mark.sorted (.whole (twice opening)) [(.inline opening false, k)] =
      [⟨0, .opening, ⟨0, n⟩, n + 1⟩, ⟨0, .opening, ⟨n + 1, n + 1 + n⟩, n + 1 + n⟩,
        ⟨0, .closing, ⟨n + 1, n + 1⟩, n + 1⟩,
        ⟨0, .closing, ⟨n + 1 + n, n + 1 + n⟩, n + 1 + n⟩] := by
    simp [Mark.sorted, Mark.ofDelimiters, marks, Order.sort, Order.place, Mark.le, Span.length,
      positive, positive.ne']
  simp [regions, sorted, start, regionsFrom, Role.opens, Role.closes, Mark.close?, reach, total,
    Delimiter.spansLines, positive, behind]

end Delimiters

structure CheckedSearch where
  probes : List (Category × Probe)
  delimiters : Delimiters
  spansLines : Bool

namespace CheckedSearch

def scanSpan? (q : CheckedSearch) (t : Text) (wanted : Span) : Option Span :=
  if q.spansLines then some ⟨0, Text.size t⟩ else ByteLines.bounds? (Text.bytes t) wanted

def found? (q : CheckedSearch) (t : Text) (s : Span) : Option (List (Category × Span)) := do
  let alone ← q.probes.mapM fun e => (e.2.spans? t s).map fun l => l.map (e.1, ·)
  let swept ← q.delimiters.regions? t s
  some (alone.flatten ++ swept)

def captures? (q : CheckedSearch) (t : Text) (wanted : Span) : Option (List Capture) := do
  let s ← q.scanSpan? t wanted
  let found ← q.found? t s
  some ((found.filter fun f => f.2.overlaps wanted).map fun f => ⟨f.1.name, f.2⟩)

def ofRules (r : RuleSet) : CheckedSearch :=
  ⟨r.finders.map fun e => (e.1, .ofFinder e.2), r.delimiters, r.spansLines⟩

variable {d : Definition} {r : RuleSet} {q : CheckedSearch} {t : Text} {s wanted : Span} {w : Window}

theorem scanSpan?_exact (q : CheckedSearch) (t : Text) (wanted : Span) : q.scanSpan? t wanted =
    some (if q.spansLines then ⟨0, Text.size t⟩ else lineBounds t wanted) := by
  rw [scanSpan?, ByteLines.bounds?_exact]
  split
  · rfl
  · rfl

theorem mapM_total {α β : Type} {f : α → Option (List β)} {P : β → Prop} {l : List α}
    (each : ∀ a ∈ l, ∃ found, f a = some found ∧ ∀ b ∈ found, P b) :
    ∃ found, l.mapM f = some found ∧ ∀ b ∈ found.flatten, P b := by
  induction l with
  | nil => exact ⟨[], rfl, by simp⟩
  | cons a rest ih =>
    obtain ⟨own, first, holds⟩ := each a (by simp)
    obtain ⟨others, later, behind⟩ := ih fun b member => each b (by simp [member])
    refine ⟨own :: others, by rw [List.mapM_cons, first, later]; rfl, fun b member => ?_⟩
    rw [List.flatten_cons, List.mem_append] at member
    exact member.elim (holds b) (behind b)

theorem scanned_window (lines : Bool) (t : Text) (wanted : Span) :
    ∃ w, Window.of? t (if lines then ⟨0, Text.size t⟩ else lineBounds t wanted) = some w := by
  cases lines with
  | true => exact ⟨_, RuleSet.window_whole t⟩
  | false =>
    obtain ⟨left, middle, right, lined⟩ := lineBounds_parts t wanted
    exact ⟨_, RuleSet.window_lined lined⟩

theorem found?_total (full : q.delimiters.Full) (window : Window.of? t s = some w) :
    ∃ l, q.found? t s = some l ∧ ∀ f ∈ l, Lies t q.delimiters.WritesInline f.2 := by
  have probes : ∀ e ∈ q.probes, ∃ found,
      ((e.2.spans? t s).map fun l => l.map (e.1, ·)) = some found ∧
        ∀ f ∈ found, Lies t q.delimiters.WritesInline f.2 := by
    intro e _
    obtain ⟨l, spans, each⟩ := e.2.spans?_total window
    refine ⟨_, by rw [spans]; rfl, fun f member => ?_⟩
    obtain ⟨span, listed, rfl⟩ := List.mem_map.mp member
    exact (each span listed).imp fun _ => False.elim
  obtain ⟨alone, searched, each⟩ := mapM_total probes
  refine ⟨_, by rw [found?, searched, Delimiters.regions?_exact full window]; rfl, ?_⟩
  intro f member
  rcases List.mem_append.mp member with found | swept
  · exact each f found
  · have text := Window.of?_text window
    exact text ▸ Delimiters.regions_lie full swept

theorem found?_ofRules (full : r.delimiters.Full) (window : Window.of? t s = some w) :
    (ofRules r).found? t s = some (r.found w) := by
  have probes : (ofRules r).probes.mapM (fun e => (e.2.spans? t s).map fun l => l.map (e.1, ·)) =
      some (r.finders.map fun e => (e.2.spans w).map (e.1, ·)) := by
    rw [ofRules, List.mapM_map]
    refine Width.mapM_eq fun e _ => ?_
    dsimp only [Function.comp_apply]
    rw [Probe.spans?_ofFinder e.2 window]
    rfl
  have swept : (ofRules r).delimiters.regions? t s = some (r.delimiters.regions w) :=
    Delimiters.regions?_exact full window
  rw [found?, probes]
  simp only [Option.bind_eq_bind, Option.bind_some, swept]
  rw [RuleSet.found, List.flatMap_def]

theorem captures?_ofRules (full : r.delimiters.Full) (t : Text) (wanted : Span) :
    (ofRules r).captures? t wanted = r.captures? t wanted := by
  obtain ⟨w, window⟩ := scanned_window r.spansLines t wanted
  have found := found?_ofRules full window
  rw [captures?, scanSpan?_exact, RuleSet.captures?]
  simp only [Option.bind_eq_bind, Option.bind_some]
  change ((ofRules r).found? t (r.scanSpan t wanted)).bind _ = _
  rw [RuleSet.scanSpan, found, window]
  rfl

theorem writesInline_inlines (compiled : RuleSet.ofDefinition d = .ok r) {x : Text}
    (writes : r.delimiters.WritesInline x) : ∃ c ∈ d.inlines, c.opening = x := by
  have each : ∀ e ∈ r.delimiters, ∀ x leading, e.1 = .inline x leading →
      ∃ c ∈ d.inlines, c.opening = x := by
    refine RuleSet.ofDefinition_each (P := fun made => ∀ x leading, made = .inline x leading →
      ∃ c ∈ d.inlines, c.opening = x) compiled ?_ ?_ ?_
    · rintro rule made of_rule x leading rfl
      obtain ⟨-, closing, -, pair⟩ := Delimiter.ofRule?_parts of_rule
      cases pair
    · rintro c - made of_block x leading rfl
      obtain ⟨-, pair⟩ := Delimiter.ofBlock?_parts of_block
      cases pair
    · rintro c listed made of_inline x leading rfl
      obtain ⟨-, inline⟩ := Delimiter.ofInline?_parts of_inline
      cases inline
      exact ⟨c, listed, rfl⟩
  obtain ⟨e, held, leading, inline⟩ := writes
  exact each e held x leading inline

-- Something wanted, or nothing where an inline comment stands that starts with a terminator.
structure Captured (d : Definition) (t : Text) (wanted s : Span) : Prop extends
    Lies t (fun x => ∃ c ∈ d.inlines, c.opening = x) s where
  within : s.stop ≤ Text.size t
  meets : s.start < s.stop → s.Meets wanted

-- Whatever matches the patterns have, no cut fails, and the captures hold some of what is wanted.
-- Only where an inline comment starts with a line terminator may one hold nothing.
theorem captures_safe (compiled : RuleSet.ofDefinition d = .ok r) (q : CheckedSearch)
    (own : q.delimiters = r.delimiters) (t : Text) (wanted : Span) :
    ∃ l, q.captures? t wanted = some l ∧ (∀ c ∈ l, Captured d t wanted c.span) ∧
      (q = ofRules r → r.captures? t wanted = some l) := by
  have full := (RuleSet.ofDefinition_compiled compiled).full
  obtain ⟨w, window⟩ := scanned_window q.spansLines t wanted
  obtain ⟨found, told, each⟩ := found?_total (own ▸ full) window
  have captured : q.captures? t wanted =
      some ((found.filter fun f => f.2.overlaps wanted).map fun f => ⟨f.1.name, f.2⟩) := by
    rw [captures?, scanSpan?_exact]
    simp only [Option.bind_eq_bind, Option.bind_some, told]
  refine ⟨_, captured, ?_, ?_⟩
  · intro c member
    obtain ⟨f, listed, rfl⟩ := List.mem_map.mp member
    obtain ⟨held, overlaps⟩ := List.mem_filter.mp listed
    have lies := (each f held).imp fun x writes => writesInline_inlines compiled (own ▸ writes)
    exact ⟨lies, lies.stops.within, fun more => Span.meets_of_overlaps more overlaps⟩
  · rintro rfl
    rw [← captures?_ofRules full, captured]

theorem captures_safe_inside :
    ∃ r, RuleSet.ofDefinition RuleSet.quotes = .ok r ∧ (ofRules r).delimiters = r.delimiters ∧
      ∃ l, (ofRules r).captures? ['é', '"', 'é', '"', '\r', '\n', '#'] ⟨4, 4⟩ = some l ∧
        l = [⟨"strings", ⟨2, 6⟩⟩] ∧
        ∀ c ∈ l, Captured RuleSet.quotes ['é', '"', 'é', '"', '\r', '\n', '#'] ⟨4, 4⟩ c.span := by
  cases made : RuleSet.ofDefinition RuleSet.quotes with
  | error e => cases made
  | ok r =>
    obtain ⟨l, checked, each, same⟩ :=
      captures_safe made (ofRules r) rfl ['é', '"', 'é', '"', '\r', '\n', '#'] ⟨4, 4⟩
    refine ⟨r, rfl, rfl, l, checked, ?_, each⟩
    have told := same rfl
    cases made
    cases told
    rfl

theorem breaking_captured {opening : Text} {x : Char} (head : opening.head? = some x)
    (ends : Text.isTerminator x = true) :
    ∃ r, RuleSet.ofDefinition { inlines := [⟨opening, false⟩] } = .ok r ∧
      r.captures? (Delimiters.twice opening) ⟨0, Text.size (Delimiters.twice opening)⟩ =
        some [⟨"comments", ⟨Text.size opening + 1, Text.size opening + 1⟩⟩] := by
  have regions := Delimiters.twice_regions .comments head ends
  have size := Delimiters.twice_size opening
  obtain ⟨rest, rfl⟩ := List.head?_eq_some_iff.mp head
  have positive : 0 < Text.size (x :: rest) := Text.size_pos (List.cons_ne_nil x rest)
  refine ⟨⟨.general, [], [(.inline (x :: rest) false, .comments)], [], false⟩, rfl, ?_⟩
  rw [RuleSet.captures_every, RuleSet.every, RuleSet.found, regions, size]
  generalize Text.size (x :: rest) = n at positive
  have near : n + 1 < n + 1 + n := by omega
  simp [Span.overlaps, Span.isEmpty, near, Category.name]

-- The second comment is closed by the end of the first one, where it starts.
theorem captures_safe_nothing : ¬ ∀ (d : Definition) (r : RuleSet) (t : Text) (wanted : Span)
    (l : List Capture), RuleSet.ofDefinition d = .ok r → r.captures? t wanted = some l →
      ∀ c ∈ l, c.span.start < c.span.stop := by
  intro claim
  have head : ['\n', '#'].head? = some '\n' := rfl
  obtain ⟨r, compiled, captured⟩ := breaking_captured head rfl
  exact absurd (claim _ r _ _ _ compiled captured _ (List.mem_singleton.mpr rfl)) (by decide)

end CheckedSearch

end Rules

end LiveHighlight
