import LiveHighlight.Proofs.SweepLines
import LiveHighlight.Rules.RuleSet

-- What the rules of a definition come to when it is made ready for search.

namespace LiveHighlight.Rules

namespace Delimiter

variable {d : Delimiter}

theorem ofRule?_parts {r : HighlightRule} (made : ofRule? r = some d) : r.beginString ≠ [] ∧
    ∃ closing, r.end? = some closing ∧ d = .pair r.beginString closing r.isMultiline := by
  unfold ofRule? at made
  split at made
  · cases made
  · rename_i plain
    split at made
    · cases made
    · rename_i closing ending
      split at made
      · cases made
        exact ⟨by simp_all, closing, ending, rfl⟩
      · cases made

theorem ofInline?_parts {c : InlineComment} (made : ofInline? c = some d) :
    c.opening ≠ [] ∧ d = .inline c.opening c.leadingOnly := by
  unfold ofInline? at made
  split at made
  · cases made
  · rename_i held
    cases made
    exact ⟨by simpa using held, rfl⟩

theorem ofBlock?_parts {c : BlockComment} (made : ofBlock? c = some d) :
    (c.opening ≠ [] ∧ c.closing ≠ []) ∧ d = .pair c.opening c.closing true := by
  unfold ofBlock? at made
  split at made
  · cases made
  · rename_i held
    cases made
    exact ⟨by simpa using held, rfl⟩

theorem ofRule?_full {r : HighlightRule} (made : ofRule? r = some d) : d.Full := by
  obtain ⟨opening, closing, ending, rfl⟩ := ofRule?_parts made
  exact ⟨opening, by simpa using (Option.filter_eq_some_iff.mp ending).2⟩

theorem ofInline?_full {c : InlineComment} (made : ofInline? c = some d) : d.Full := by
  obtain ⟨held, rfl⟩ := ofInline?_parts made
  exact held

theorem ofBlock?_full {c : BlockComment} (made : ofBlock? c = some d) : d.Full := by
  obtain ⟨held, rfl⟩ := ofBlock?_parts made
  exact held

end Delimiter

namespace Delimiters

variable {l next : Delimiters} {d : Delimiter} {k : Category} {P : Delimiter → Prop}

def Full (l : Delimiters) : Prop := ∀ e ∈ l, e.1.Full

-- What holds of the delimiters that are there and of the new one holds of all.

theorem declare?_each (each : ∀ e ∈ l, P e.1) (new : P d)
    (declared : l.declare? d k = some next) : ∀ e ∈ next, P e.1 := by
  unfold declare? at declared
  split at declared
  · cases declared
  · cases declared
    intro e member
    rcases List.mem_append.mp member with old | own
    · exact each e old
    · cases List.mem_singleton.mp own
      exact new

theorem override_each (each : ∀ e ∈ l, P e.1) (new : P d) : ∀ e ∈ override d k l, P e.1 := by
  induction l with
  | nil =>
    intro e member
    cases List.mem_singleton.mp member
    exact new
  | cons first rest ih =>
    have others : ∀ e ∈ rest, P e.1 := fun e member => each e (by simp [member])
    unfold override
    split
    · intro e member
      rcases List.mem_cons.mp member with rfl | later
      · exact new
      · exact others e later
    · intro e member
      rcases List.mem_cons.mp member with rfl | later
      · exact each _ (by simp)
      · exact ih others e later

theorem comments_each {comments : List Delimiter} (each : ∀ e ∈ l, P e.1)
    (new : ∀ d ∈ comments, P d) :
    ∀ e ∈ comments.foldl (fun l c => override c .comments l) l, P e.1 := by
  induction comments generalizing l with
  | nil => exact each
  | cons c rest ih =>
    exact ih (override_each each (new c (by simp))) fun d member => new d (by simp [member])

end Delimiters

namespace RuleSet

variable {d : Definition} {r : RuleSet} {k : Category} {s next : Sorted} {rule : HighlightRule}
  {P : Delimiter → Prop}

section Rules

variable (ruled : ∀ rule made, Delimiter.ofRule? rule = some made → P made)

include ruled

theorem sortRule_each (each : ∀ e ∈ s.delimiters, P e.1) (sorted : sortRule k s rule = .ok next) :
    ∀ e ∈ next.delimiters, P e.1 := by
  unfold sortRule at sorted
  split at sorted
  · rename_i delimiters declared
    obtain ⟨made, of_rule, declares⟩ := Option.bind_eq_some_iff.mp declared
    cases sorted
    exact Delimiters.declare?_each each (ruled rule made of_rule) declares
  · split at sorted
    · split at sorted <;> cases sorted <;> exact each
    · split at sorted <;> cases sorted <;> exact each

theorem sortRules_each {rules : List HighlightRule} (each : ∀ e ∈ s.delimiters, P e.1)
    (sorted : sortRules k s rules = .ok next) : ∀ e ∈ next.delimiters, P e.1 := by
  induction rules generalizing s with
  | nil =>
    cases sorted
    exact each
  | cons first rest ih =>
    unfold sortRules at sorted
    split at sorted
    · cases sorted
    · rename_i here
      exact ih (sortRule_each ruled each here) sorted

theorem sortCategories_each {l l' : Delimiters} {finders finders' : List (Category × Finder)}
    {highlights : List (String × List HighlightRule)} (each : ∀ e ∈ l, P e.1)
    (sorted : sortCategories l finders highlights = .ok (l', finders')) : ∀ e ∈ l', P e.1 := by
  induction highlights generalizing l finders with
  | nil =>
    cases sorted
    exact each
  | cons first rest ih =>
    unfold sortCategories at sorted
    split at sorted
    · cases sorted
    · split at sorted
      · cases sorted
      · rename_i here
        exact ih (sortRules_each ruled each here) sorted

end Rules

theorem withComments_each {l : Delimiters} (each : ∀ e ∈ l, P e.1)
    (blocks : ∀ c ∈ d.blocks, ∀ made, Delimiter.ofBlock? c = some made → P made)
    (inlines : ∀ c ∈ d.inlines, ∀ made, Delimiter.ofInline? c = some made → P made) :
    ∀ e ∈ withComments l d, P e.1 := by
  apply Delimiters.comments_each each
  intro made member
  rcases List.mem_append.mp member with block | inline
  · obtain ⟨c, listed, of_block⟩ := List.mem_filterMap.mp block
    exact blocks c listed made of_block
  · obtain ⟨c, listed, of_inline⟩ := List.mem_filterMap.mp inline
    exact inlines c listed made of_inline

-- What every definition that can be read comes to.
structure Compiled (r : RuleSet) : Prop where
  full : r.delimiters.Full
  spansLines : r.spansLines = (r.finders.any (fun e => e.2.spansLines) || r.delimiters.spansLines)

theorem ofDefinition_parts (made : ofDefinition d = .ok r) : ∃ declared,
    sortCategories [] [] d.highlights = .ok (declared, r.finders) ∧
      r.delimiters = withComments declared d ∧
      r.spansLines =
        (r.finders.any (fun e => e.2.spansLines) || r.delimiters.spansLines) := by
  unfold ofDefinition at made
  split at made
  · cases made
  · rename_i declared finders sorted
    cases outlined : readOutlines d.outlines with
    | error e =>
      rw [outlined] at made
      cases made
    | ok outlines =>
      rw [outlined] at made
      cases made
      exact ⟨declared, sorted, rfl, rfl⟩

theorem ofDefinition_each (made : ofDefinition d = .ok r)
    (ruled : ∀ rule made, Delimiter.ofRule? rule = some made → P made)
    (blocks : ∀ c ∈ d.blocks, ∀ made, Delimiter.ofBlock? c = some made → P made)
    (inlines : ∀ c ∈ d.inlines, ∀ made, Delimiter.ofInline? c = some made → P made) :
    ∀ e ∈ r.delimiters, P e.1 := by
  obtain ⟨declared, sorted, delimiters, -⟩ := ofDefinition_parts made
  rw [delimiters]
  exact withComments_each (sortCategories_each ruled (by simp) sorted) blocks inlines

theorem ofDefinition_compiled (made : ofDefinition d = .ok r) : r.Compiled := by
  obtain ⟨declared, -, -, spansLines⟩ := ofDefinition_parts made
  refine ⟨ofDefinition_each made ?_ ?_ ?_, spansLines⟩
  · exact fun _ _ => Delimiter.ofRule?_full
  · exact fun _ _ _ => Delimiter.ofBlock?_full
  · exact fun _ _ _ => Delimiter.ofInline?_full

end RuleSet

end LiveHighlight.Rules
