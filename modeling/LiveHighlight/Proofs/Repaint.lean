import LiveHighlight.Proofs.Colours
import LiveHighlight.Proofs.Origins
import LiveHighlight.Rules.RuleLayer

-- What a pass has rendered again, and whether the rest still has the right colours.

namespace LiveHighlight

open SpanSet Replacement

namespace Rules.RuleLayer

variable {layer : RuleLayer} {s next later base last : Session RuleLayer} {t : Text} {r wanted : Span}
  {h : Span} {l : List Replacement} {i : Nat}

theorem edited_layer (edited : s.Edited l later) : later.layer = s.layer := by
  induction edited with
  | start => rfl
  | edit earlier accepted taken ih =>
    obtain ⟨splice, left, old, right, spliced⟩ := Session.edit_spliced accepted
    exact spliced.layer.trans ih
  | cancelled earlier passed ih =>
    obtain ⟨same, -, -⟩ := Session.cancelled_same passed
    rcases same with rfl | rfl
    · exact ih
    · refine Eq.trans ?_ ih
      unfold Session.refresh
      split <;> rfl

structure Widened (layer : RuleLayer) (t : Text) (r : Span) : Prop where
  proper : (layer.widened t r).Proper
  start : ∃ left rest, t = left ++ rest ∧ left.Ended ∧ Text.size left = (layer.widened t r).start ∧
    Text.size left ≤ r.start
  stop : r.stop ≤ (layer.widened t r).stop ∧ (layer.widened t r).stop ≤ Text.size t
  ends : (layer.widened t r).stop = Text.size t ∨ r.stop < (layer.widened t r).stop ∧
    layer.rules.spansLines = false ∧ ∃ a x rest, t = (a ++ [x]) ++ rest ∧
      Text.isTerminator x = true ∧ Text.size (a ++ [x]) = (layer.widened t r).stop

theorem widened_parts (layer : RuleLayer) (proper : r.start ≤ r.stop) (inside : r.stop ≤ Text.size t) :
    Widened layer t r := by
  obtain ⟨left, middle, right, lined⟩ := lineBounds_parts t r
  have sizes := congrArg Text.size lined.whole
  have start := lined.start
  have stop := lined.stop
  have behind := lined.behind
  simp only [Span.clamp, Text.size_append] at sizes start stop behind
  have starts : (layer.widened t r).start = Text.size left := by
    unfold widened
    rw [lined.lines]
    split <;> rfl
  have front : ∃ left rest, t = left ++ rest ∧ left.Ended ∧
      Text.size left = (layer.widened t r).start ∧ Text.size left ≤ r.start :=
    ⟨left, middle ++ right, lined.whole, lined.before, starts.symm, by omega⟩
  cases mode : layer.rules.spansLines with
  | true =>
    have stops : (layer.widened t r).stop = Text.size t := by
      unfold widened
      rw [mode]
      rfl
    refine ⟨?_, front, by omega, .inl stops⟩
    unfold Span.Proper
    omega
  | false =>
    have stops : (layer.widened t r).stop = Text.size left + Text.size middle := by
      unfold widened
      rw [mode, lined.lines]
      rfl
    refine ⟨?_, front, by omega, ?_⟩
    · unfold Span.Proper
      omega
    · rcases behind with rfl | ⟨held, ended, beyond⟩
      · rw [Text.size_nil] at sizes
        exact .inl (by omega)
      · obtain nothing | ⟨u, x, rfl, ends⟩ := ended
        · exact absurd nothing held
        · refine .inr ⟨by omega, mode, left ++ u, x, right, ?_, ends, ?_⟩
          · rw [lined.whole]
            simp only [List.append_assoc]
          · rw [stops]
            simp only [Text.size_append]
            omega

theorem refresh_invalidated (held : s.affected.spans.spans ≠ []) :
    s.refresh.2 = .ofList (s.affected.spans.spans.map (s.layer.widened s.text)) := by
  have some_left : s.affected.isEmpty = false := by
    simpa [Affected.isEmpty, SpanSet.isEmpty] using held
  unfold Session.refresh
  rw [some_left]
  rfl

theorem pass_settles {result : Pass} (passed : s.pass t wanted .never = (next, some result)) :
    next.affected = .none ∧ next.layer = s.layer := by
  have current : (s.catchUp t).layer = s.layer := by
    unfold Session.catchUp
    split <;> rfl
  have refreshed : (s.catchUp t).refresh.1.layer = (s.catchUp t).layer := by
    unfold Session.refresh
    split <;> rfl
  have finished : { (s.catchUp t).refresh.1 with affected := Affected.none } = next := by
    cases passed
    rfl
  rw [← finished]
  exact ⟨rfl, refreshed.trans current⟩

theorem pass_updated {result : Pass} (passed : s.pass s.text wanted .never = (next, some result)) :
    result.updated = s.updatedSpan s.refresh.2 wanted := by
  have present : s.catchUp s.text = s := if_pos rfl
  unfold Session.pass at passed
  rw [present] at passed
  have updated : Session.updatedSpan { s.refresh.1 with affected := Affected.none } s.refresh.2
      wanted = result.updated := by
    cases passed
    rfl
  rw [← updated]
  unfold Session.updatedSpan
  dsimp only
  rw [(Session.refresh_same s).2]

theorem outside_hull (invalidated : s.refresh.2.hull? = some h) (inside : i < Text.size s.text)
    (outside : ¬ ((s.updatedSpan s.refresh.2 wanted).start ≤ i ∧
      i < (s.updatedSpan s.refresh.2 wanted).stop)) : i < h.start ∨ h.stop ≤ i := by
  have size : s.document.size = Text.size s.text := rfl
  unfold Session.updatedSpan at outside
  rw [invalidated, size] at outside
  simp only [Span.hull, Span.clamp] at outside
  omega

structure Invalidated (later : Session RuleLayer) (h : Span) : Prop where
  hull : later.refresh.2.hull? = some h
  each : ∀ r ∈ later.affected.spans.spans, Widened later.layer later.text r ∧
    h.start ≤ (later.layer.widened later.text r).start ∧
      (later.layer.widened later.text r).stop ≤ h.stop
  start : ∃ r ∈ later.affected.spans.spans, (later.layer.widened later.text r).start = h.start
  stop : ∃ r ∈ later.affected.spans.spans, (later.layer.widened later.text r).stop = h.stop

theorem edited_invalidated (traces : later.Traces t l)
    (held : later.affected.spans.spans ≠ []) : ∃ h, Invalidated later h := by
  obtain ⟨canonical, patched⟩ := traces.tracks
  have parts : ∀ r ∈ later.affected.spans.spans, Widened later.layer later.text r := by
    intro r member
    have bounds := patched.bounds r member
    exact widened_parts later.layer (canonical.2 r member) (by omega)
  have proper : ∀ q ∈ later.affected.spans.spans.map (later.layer.widened later.text), q.Proper := by
    intro q member
    obtain ⟨r, listed, rfl⟩ := List.mem_map.mp member
    exact (parts r listed).proper
  obtain ⟨h, hull, ⟨q, member, start⟩, ⟨q', member', stop⟩, bounds⟩ :=
    hull_bounds proper (by simpa using held)
  obtain ⟨r, listed, rfl⟩ := List.mem_map.mp member
  obtain ⟨r', listed', rfl⟩ := List.mem_map.mp member'
  rw [← refresh_invalidated held] at hull
  exact ⟨h, hull, fun r listed => ⟨parts r listed, bounds _ (List.mem_map_of_mem listed)⟩,
    ⟨r, listed, start⟩, r', listed', stop⟩

theorem front_kept (traces : later.Traces t l) (invalidated : Invalidated later h) :
    ∃ front a b, later.text = front ++ a ∧ t = front ++ b ∧ front.Ended ∧
      Text.size front = h.start ∧
        ∀ i < h.start, Before (ListReaches later.affected.spans.spans) i := by
  obtain ⟨-, each, ⟨r, listed, start⟩, -⟩ := invalidated
  obtain ⟨front, rest, whole, ended, size, -⟩ := (each r listed).1.start
  have first : ∀ r ∈ later.affected.spans.spans, h.start ≤ r.start := by
    intro r listed
    obtain ⟨parts, lowest, -⟩ := each r listed
    obtain ⟨left, -, -, -, size, near⟩ := parts.start
    omega
  have patched := traces.tracks.2
  rw [whole] at patched
  obtain ⟨b, same⟩ := patched.front fun r listed => by
    have near := first r listed
    omega
  refine ⟨front, rest, b, whole, same, ended, by omega, ?_⟩
  intro i before k reached
  obtain ⟨r, listed, lower, -⟩ := reached
  have near := first r listed
  omega

-- And so is the text behind. Nothing is behind if some rule spans lines.
theorem back_kept (traces : later.Traces t l) (invalidated : Invalidated later h)
    (more : h.stop < Text.size later.text) :
    later.layer.rules.spansLines = false ∧
      ∃ a b x rest, later.text = (a ++ [x]) ++ rest ∧ t = (b ++ [x]) ++ rest ∧
        Text.isTerminator x = true ∧ Text.size (a ++ [x]) = h.stop ∧
          ∀ i, h.stop ≤ i → Behind (ListReaches later.affected.spans.spans) i := by
  obtain ⟨-, each, -, r, listed, stop⟩ := invalidated
  have last : ∀ r ∈ later.affected.spans.spans, r.stop < h.stop := by
    intro r listed
    obtain ⟨parts, -, highest⟩ := each r listed
    rcases parts.ends with whole | ⟨beyond, -⟩
    · omega
    · omega
  rcases (each r listed).1.ends with whole | ⟨-, single, a, x, rest, whole, ends, size⟩
  · omega
  · have one := Text.terminator_size ends
    have size' : Text.size (a ++ [x]) = Text.size a + 1 := by
      rw [Text.size_append, Text.size_cons, Text.size_nil, one]
    have patched := traces.tracks.2
    have cut : later.text = a ++ ([x] ++ rest) := by rw [whole, List.append_assoc]
    rw [cut] at patched
    obtain ⟨b, same⟩ := patched.back fun r listed => by
      have near := last r listed
      omega
    refine ⟨single, a, b, x, rest, whole, by rw [same, List.append_assoc], ends, by omega, ?_⟩
    intro i behind k reached
    obtain ⟨r, listed, -, upper⟩ := reached
    have near := last r listed
    omega

end Rules.RuleLayer

namespace Rules.RuleSet

variable {r : RuleSet} {s later base last : Session RuleLayer} {t : Text} {wanted : Span}
  {l : List Replacement} {i : Nat}

-- When the colours outside of what was invalidated can be kept: every rule keeps to its line, or,
-- if rules may span lines, the same is open in both texts where the first invalidated line starts.
def KeepsColours (r : RuleSet) (before now : Text) (invalidated : SpanSet) : Prop :=
  if r.spansLines then
    r.opensOnLines = true ∧ ∀ h, invalidated.hull? = some h → r.OpensAlike now before h.start
  else r.keepsToLines = true

theorem colours_before {h : Span} (compiled : r.Compiled) (traces : later.Traces t l)
    (invalidated : RuleLayer.Invalidated later h) (before : i < h.start) :
    origins? l i = some i ∧ i < Text.size t ∧
      (r.KeepsColours t later.text later.refresh.2 →
        r.categoriesAt later.text i = r.categoriesAt t i) := by
  obtain ⟨front, a, b, now, was, ended, size, early⟩ := RuleLayer.front_kept traces invalidated
  refine ⟨traces.before i (early i before), ?_, ?_⟩
  · rw [was, Text.size_append]
    omega
  · intro keeps
    unfold KeepsColours at keeps
    rw [now, was] at keeps ⊢
    cases mode : r.spansLines with
    | true =>
      rw [mode, if_pos rfl] at keeps
      have alike := keeps.2 h invalidated.hull
      rw [← size] at alike before
      exact ((finds_alike_iff compiled keeps.1 ended a b).mpr alike).categories compiled before
    | false =>
      rw [mode, if_neg (by simp)] at keeps
      rw [← size] at before
      exact categories_front compiled mode keeps ended before

theorem colours_behind {h : Span} (compiled : r.Compiled) (traces : later.Traces t l)
    (layered : later.layer.rules = r) (invalidated : RuleLayer.Invalidated later h)
    (inside : i < Text.size later.text) (behind : h.stop ≤ i) :
    ∃ j, origins? l i = some j ∧ j < Text.size t ∧
      (r.KeepsColours t later.text later.refresh.2 →
        r.categoriesAt later.text i = r.categoriesAt t j) := by
  obtain ⟨single, a, b, x, rest, now, was, ends, size, late⟩ :=
    RuleLayer.back_kept traces invalidated (Nat.lt_of_le_of_lt behind inside)
  obtain ⟨j, origin, place⟩ := traces.behind i (late i behind)
  refine ⟨j, origin, by omega, ?_⟩
  intro keeps
  rw [layered] at single
  unfold KeepsColours at keeps
  rw [single, if_neg (by simp)] at keeps
  obtain ⟨n, rfl⟩ := Nat.exists_eq_add_of_le behind
  have from_b : j = Text.size (b ++ [x]) + n := by
    rw [now, was] at place
    simp only [Text.size_append] at place size ⊢
    omega
  rw [now, was, from_b, ← size]
  exact categories_back compiled single keeps ends a b rest n

theorem colours_kept (compiled : r.Compiled) (traces : later.Traces t l)
    (layered : later.layer.rules = r) (inside : i < Text.size later.text)
    (outside : ∀ h, later.refresh.2.hull? = some h → i < h.start ∨ h.stop ≤ i) :
    ∃ j, origins? l i = some j ∧ j < Text.size t ∧
      (r.KeepsColours t later.text later.refresh.2 →
        r.categoriesAt later.text i = r.categoriesAt t j) := by
  by_cases held : later.affected.spans.spans = []
  · -- nothing was edited
    have same : t = later.text := by
      have patched := traces.tracks.2
      rw [held] at patched
      exact patched.unchanged
    have origin := traces.before i (by simp [held, Before])
    exact ⟨i, origin, by rwa [same], fun _ => by rw [same]⟩
  · obtain ⟨h, invalidated⟩ := RuleLayer.edited_invalidated traces held
    rcases outside h invalidated.hull with before | behind
    · exact ⟨i, colours_before compiled traces invalidated before⟩
    · exact colours_behind compiled traces layered invalidated inside behind

theorem finds_kept (compiled : r.Compiled) (opens : r.opensOnLines = true)
    (traces : later.Traces t l) {h : Span} (hull : later.refresh.2.hull? = some h) :
    r.FindsAlike later.text t h.start ↔ r.OpensAlike later.text t h.start := by
  have held : later.affected.spans.spans ≠ [] := by
    intro nothing
    have none_left : later.affected.isEmpty = true := by
      simp [Affected.isEmpty, SpanSet.isEmpty, nothing]
    unfold Session.refresh at hull
    rw [none_left] at hull
    cases hull
  obtain ⟨h', invalidated⟩ := RuleLayer.edited_invalidated traces held
  cases invalidated.hull.symm.trans hull
  obtain ⟨front, a, b, now, was, ended, size, -⟩ := RuleLayer.front_kept traces invalidated
  rw [now, was, ← size]
  exact finds_alike_iff compiled opens ended a b

-- Every byte outside of what a pass has rendered again comes from a byte of the text that the last
-- pass saw. Both have the same categories unless a rule leaves its line against its marks or
-- something else than before is open where the first invalidated line starts.
theorem repaint_sound {d : Definition} {asked : Span} {first result : Pass}
    (made : ofDefinition d = .ok r) (layered : s.layer.rules = r)
    (finished : s.pass t asked .never = (base, some first)) (edited : base.Edited l later)
    (passed : later.pass later.text wanted .never = (last, some result)) :
    (∀ i < Text.size later.text, ¬ (result.updated.start ≤ i ∧ i < result.updated.stop) →
      ∃ j, origins? l i = some j ∧ j < Text.size base.text ∧
        (r.KeepsColours base.text later.text later.refresh.2 →
          r.categoriesAt later.text i = r.categoriesAt base.text j)) ∧
      (r.opensOnLines = true → ∀ h, later.refresh.2.hull? = some h →
        (r.FindsAlike later.text base.text h.start ↔
          r.OpensAlike later.text base.text h.start)) := by
  have compiled := ofDefinition_compiled made
  obtain ⟨settled, layer⟩ := RuleLayer.pass_settles finished
  have traces := Session.edited_traces settled edited
  have same := RuleLayer.edited_layer edited
  refine ⟨?_, fun opens h hull => finds_kept compiled opens traces hull⟩
  intro i inside outside
  rw [RuleLayer.pass_updated passed] at outside
  exact colours_kept compiled traces (by rw [same, layer, layered]) inside
    fun h invalidated => RuleLayer.outside_hull invalidated inside outside

def blocks : RuleSet := ⟨.general, [], [(.pair ['/', '*'] ['*', '/'] true, .comments)], [], true⟩

def commented (t : Text) (starts : List Nat) (affected : List Span) (i : Intake) :
    Session RuleLayer :=
  ⟨⟨blocks⟩, ⟨t, ⟨starts⟩⟩, ⟨⟨affected⟩⟩, ⟨true, ""⟩, i⟩

theorem blocks_made : ofDefinition { blocks := [⟨['/', '*'], ['*', '/']⟩] } = .ok blocks := rfl

def closed : Session RuleLayer :=
  commented ['/', '*', 'x', '\n', 'y', '*', '/'] [0, 4] [] .unchanged

def grown : Session RuleLayer :=
  commented ['/', '*', 'x', '\n', 'z', 'y', '*', '/'] [0, 4] [⟨4, 5⟩] .incremental

theorem repaint_sound_grown :
    ∃ first result, closed.pass closed.text ⟨0, 7⟩ .never = (closed, some first) ∧
      closed.Edited [⟨⟨4, 4⟩, ⟨4, 5⟩⟩] grown ∧
      grown.pass grown.text ⟨4, 5⟩ .never = ({ grown with affected := .none }, some result) ∧
      result.updated = ⟨4, 8⟩ ∧ ∀ i < 4, ∃ j, origins? [⟨⟨4, 4⟩, ⟨4, 5⟩⟩] i = some j ∧ j < 7 ∧
        blocks.categoriesAt grown.text i = blocks.categoriesAt closed.text j := by
  have finished : closed.pass closed.text ⟨0, 7⟩ .never =
      (closed, some ⟨[⟨.comments, ⟨0, 7⟩⟩], ⟨0, 7⟩⟩) := rfl
  have taken : closed.document.edit (.insert 4 ['z']) =
      .ok (grown.document, ⟨4, 4, 5, ⟨1, 0⟩, ⟨1, 0⟩, ⟨1, 1⟩⟩) := by decide +kernel
  have edited : closed.Edited [⟨⟨4, 4⟩, ⟨4, 5⟩⟩] grown := Session.edited_once taken
  have passed : grown.pass grown.text ⟨4, 5⟩ .never =
      ({ grown with affected := .none }, some ⟨[⟨.comments, ⟨0, 8⟩⟩], ⟨4, 8⟩⟩) := rfl
  refine ⟨_, _, finished, edited, passed, rfl, ?_⟩
  intro i before
  obtain ⟨kept, -⟩ := repaint_sound blocks_made rfl finished edited passed
  have size : Text.size grown.text = 8 := rfl
  obtain ⟨j, origin, inside, same⟩ := kept i (by omega) (by dsimp only; omega)
  refine ⟨j, origin, inside, same ⟨rfl, ?_⟩⟩
  intro h hull search member
  cases hull
  cases List.mem_singleton.mp member
  rfl

-- A comment that nothing closes yet, and the same closed on its second line.
def unclosed : Session RuleLayer :=
  commented ['/', '*', 'x', '\n', 'y'] [0, 4] [] .unchanged

def nowClosed : Session RuleLayer :=
  commented ['/', '*', 'x', '\n', 'y', '*', '/'] [0, 4] [⟨5, 7⟩] .incremental

-- Closing a comment colours lines that are not rendered again.
theorem repaint_stale : ¬ ∀ (d : Definition) (r : RuleSet) (s base later last : Session RuleLayer)
    (t : Text) (asked wanted : Span) (first result : Pass) (l : List Replacement),
    ofDefinition d = .ok r → s.layer.rules = r →
    s.pass t asked .never = (base, some first) → base.Edited l later →
    later.pass later.text wanted .never = (last, some result) →
    ∀ i < Text.size later.text, ¬ (result.updated.start ≤ i ∧ i < result.updated.stop) →
      ∃ j, origins? l i = some j ∧ r.categoriesAt later.text i = r.categoriesAt base.text j := by
  intro claim
  have finished : unclosed.pass unclosed.text ⟨0, 5⟩ .never =
      (unclosed, some ⟨[], ⟨0, 5⟩⟩) := rfl
  have taken : unclosed.document.edit (.insert 5 ['*', '/']) =
      .ok (nowClosed.document, ⟨5, 5, 7, ⟨1, 1⟩, ⟨1, 1⟩, ⟨1, 3⟩⟩) := by decide +kernel
  have edited : unclosed.Edited [⟨⟨5, 5⟩, ⟨5, 7⟩⟩] nowClosed := Session.edited_once taken
  have passed : nowClosed.pass nowClosed.text ⟨4, 5⟩ .never =
      ({ nowClosed with affected := .none }, some ⟨[⟨.comments, ⟨0, 7⟩⟩], ⟨4, 7⟩⟩) := rfl
  obtain ⟨j, origin, same⟩ := claim _ _ _ _ _ _ _ _ _ _ _ _ blocks_made rfl finished edited passed
    0 (by decide) (by decide)
  cases origin
  cases same

end Rules.RuleSet

end LiveHighlight
