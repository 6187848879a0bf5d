import LiveHighlight.Proofs.PartedRegions
import LiveHighlight.Proofs.Rescan

-- What a search of a whole text puts on each byte, in two texts that begin or end alike.

namespace LiveHighlight.Rules

open Pattern (Frame)

variable {κ : Type} {f : Frame} {i j n : Nat} {x y : List (κ × Span)}

theorem covering_same (all : List.Forall₂ f.Same x y)
    (place : i + Text.size f.left' = j + Text.size f.left) : covering i x = covering j y := by
  induction all with
  | nil => rfl
  | cons first others ih =>
    obtain ⟨keys, starts, stops⟩ := first
    rename_i r r' x y
    have held : r.2.holds i = r'.2.holds j := by
      rw [Bool.eq_iff_iff, Span.holds_iff, Span.holds_iff]
      omega
    rw [covering_cons, covering_cons, ih, held, keys]

namespace Linewise

variable {search : Window → List (Category × Span)} {s a b t t' : Text} {last : Char}

theorem covering_front (lines : Linewise search) (front : s = t ++ [last])
    (ends : Text.isTerminator last = true) (before : i < Text.size s) :
    covering i (search (.whole (s ++ a))) = covering i (search (.whole (s ++ b))) := by
  have parts (a : Text) := lines.cut (w := .whole (s ++ a)) (y := a) rfl front ends
  have alike : ((Window.whole (s ++ a)).front s a).Alike ((Window.whole (s ++ b)).front s b) :=
    ⟨rfl, rfl, rfl, .inr ⟨t, last, front, ends⟩⟩
  have beyond (a : Text) : covering i (search ((Window.whole (s ++ a)).back s a)) = [] :=
    covering_beyond (fun f member => (lines.within f member).1) before
  rw [parts, parts, covering_append, covering_append, beyond, beyond,
    covering_same (lines.moved alike) rfl]

theorem covering_back (lines : Linewise search) (ends : Text.isTerminator last = true)
    (a b s : Text) (n : Nat) :
    covering (Text.size (a ++ [last]) + n) (search (.whole ((a ++ [last]) ++ s))) =
      covering (Text.size (b ++ [last]) + n) (search (.whole ((b ++ [last]) ++ s))) := by
  have parts (a : Text) :=
    lines.cut (w := .whole ((a ++ [last]) ++ s)) (x := a ++ [last]) (y := s) rfl rfl ends
  have alike : ((Window.whole ((a ++ [last]) ++ s)).back (a ++ [last]) s).Alike
      ((Window.whole ((b ++ [last]) ++ s)).back (b ++ [last]) s) := by
    have blank : (last == '\\') = false := by
      simp only [Text.isTerminator, Bool.or_eq_true, beq_iff_eq] at ends
      rcases ends with rfl | rfl <;> rfl
    have before (a : Text) : ((Window.whole ((a ++ [last]) ++ s)).back (a ++ [last]) s).start.before =
        last :: a.reverse := by
      simp [Window.back, Cursor.past, Window.whole, Cursor.start]
    refine ⟨rfl, ?_, ?_, .inl rfl⟩
    · rw [before, before]
      rfl
    · rw [before, before, List.takeWhile_cons, List.takeWhile_cons, blank]
      rfl
  have near (a : Text) : covering (Text.size (a ++ [last]) + n)
      (search ((Window.whole ((a ++ [last]) ++ s)).front (a ++ [last]) s)) = [] := by
    apply covering_none
    intro f member
    have within : f.2.stop ≤ 0 + Text.size (a ++ [last]) := (lines.within f member).2
    apply Bool.eq_false_iff.mpr
    intro held
    have inside := (Span.holds_iff.mp held).2
    omega
  have moved := lines.moved alike
  rw [parts, parts, covering_append, covering_append, near, near]
  apply congrArg
  apply covering_same moved
  simp only [Window.shared, Window.back, Cursor.past, Window.whole, Cursor.start, Text.size_append,
    Text.size_reverse, Text.size_nil]
  omega

end Linewise

namespace RuleSet

variable {r : RuleSet} {s t a b : Text}

def categoriesAt (r : RuleSet) (t : Text) (i : Nat) : List String :=
  (((r.captures? t ⟨0, Text.size t⟩).getD []).filter fun c => c.span.holds i).map Capture.name

theorem categoriesAt_covering (compiled : r.Compiled) (t : Text) (i : Nat) :
    r.categoriesAt t i =
      (r.searches.flatMap fun search => covering i (search (.whole t))).map Category.name := by
  have asked : ∀ f : Category × Span, f.2.holds i = true → 0 < f.2.stop := fun f held =>
    Nat.zero_lt_of_lt (Span.holds_iff.mp held).2
  rw [categoriesAt, captures_every, Option.getD_some, List.filter_map, List.map_map]
  have same : ((fun c : Capture => c.span.holds i) ∘ fun f : Category × Span =>
      (⟨f.1.name, f.2⟩ : Capture)) = fun f => f.2.holds i := rfl
  rw [same, every_filter compiled t asked, found_searches, List.filter_flatMap, List.map_flatMap,
    List.map_flatMap]
  simp [covering, Function.comp_def]

theorem categories_front (compiled : r.Compiled) (single : r.spansLines = false)
    (kept : r.keepsToLines = true) (ended : s.Ended) (before : i < Text.size s) :
    r.categoriesAt (s ++ a) i = r.categoriesAt (s ++ b) i := by
  obtain rfl | ⟨t, last, front, ends⟩ := ended
  · cases before
  · rw [categoriesAt_covering compiled, categoriesAt_covering compiled]
    apply congrArg
    apply List.flatMap_congr
    intro search member
    exact (searches_linewise compiled single kept search member).covering_front front ends before

theorem categories_back {last : Char} (compiled : r.Compiled) (single : r.spansLines = false)
    (kept : r.keepsToLines = true) (ends : Text.isTerminator last = true) (a b s : Text) (n : Nat) :
    r.categoriesAt ((a ++ [last]) ++ s) (Text.size (a ++ [last]) + n) =
      r.categoriesAt ((b ++ [last]) ++ s) (Text.size (b ++ [last]) + n) := by
  rw [categoriesAt_covering compiled, categoriesAt_covering compiled]
  apply congrArg
  apply List.flatMap_congr
  intro search member
  exact (searches_linewise compiled single kept search member).covering_back ends a b s n

-- Whether nothing that a rule starts to look for crosses a line before it is found to start.
def opensOnLines (r : RuleSet) : Bool :=
  r.finders.all (fun e => e.2.opensOnLine) && r.delimiters.all (fun e => e.1.keepsToLine)

def OpensAlike (r : RuleSet) (t t' : Text) (v : Nat) : Prop :=
  ∀ search ∈ r.searches, openAt v (search (.whole t)) = openAt v (search (.whole t'))

def FindsAlike (r : RuleSet) (t t' : Text) (v : Nat) : Prop :=
  ∀ search ∈ r.searches, clipped v (search (.whole t)) = clipped v (search (.whole t'))

theorem FindsAlike.categories {t t' : Text} {i v : Nat} (compiled : r.Compiled)
    (alike : r.FindsAlike t t' v) (before : i < v) : r.categoriesAt t i = r.categoriesAt t' i := by
  rw [categoriesAt_covering compiled, categoriesAt_covering compiled]
  apply congrArg
  apply List.flatMap_congr
  intro search member
  rw [← covering_clipped before, alike search member, covering_clipped before]

theorem searches_parted {last : Char} (compiled : r.Compiled) (opens : r.opensOnLines = true)
    (front : s = t ++ [last]) (ends : Text.isTerminator last = true) (a b : Text) :
    ∀ search ∈ r.searches,
      Parted (Text.size s) (search (.whole (s ++ a))) (search (.whole (s ++ b))) ∧
        ∀ w, Apart (search w) := by
  obtain ⟨finders, delimiters⟩ := Bool.and_eq_true_iff.mp opens
  intro search member
  rcases List.mem_append.mp member with one | sweep
  · obtain ⟨e, held, rfl⟩ := List.mem_map.mp one
    exact ⟨Finder.spans_parted e.1 (List.all_eq_true.mp finders e held) front ends,
      e.2.spans_apart e.1⟩
  · cases List.mem_singleton.mp sweep
    exact ⟨Delimiters.regions_parted compiled.full (List.all_eq_true.mp delimiters) front ends,
      Delimiters.regions_apart compiled.full⟩

-- The finds on the shared first lines are the same exactly if the same is open behind them.
theorem finds_alike_iff (compiled : r.Compiled) (opens : r.opensOnLines = true) (ended : s.Ended)
    (a b : Text) : r.FindsAlike (s ++ a) (s ++ b) (Text.size s) ↔
      r.OpensAlike (s ++ a) (s ++ b) (Text.size s) := by
  unfold FindsAlike OpensAlike
  refine forall_congr' fun search => forall_congr' fun member => ?_
  obtain rfl | ⟨t, last, front, ends⟩ := ended
  · have nothing (x : List (Category × Span)) : clipped 0 x = [] ∧ openAt 0 x = [] := by
      have none := clipped_beyond (v := 0) (x := x) fun _ _ => Nat.zero_le _
      refine ⟨none, ?_⟩
      rw [← openAt_clipped, none]
      rfl
    rw [Text.size_nil, (nothing _).1, (nothing _).1, (nothing _).2, (nothing _).2]
    simp
  · obtain ⟨parted, apart⟩ := searches_parted compiled opens front ends a b search member
    exact parted.clipped_iff (apart _) (apart _)

end RuleSet

end LiveHighlight.Rules
