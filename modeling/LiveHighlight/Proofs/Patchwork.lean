import LiveHighlight.Proofs.Cutting
import LiveHighlight.Proofs.SpanSets

-- Two texts that agree outside a list of spans: what lies before, between and behind the spans
-- is the same text, in the same order, in both.

namespace LiveHighlight

-- The spans are those of the second text, which itself starts at the base.
inductive Patchwork : Nat → List Span → Text → Text → Prop where
  | kept (base : Nat) (gap : Text) : Patchwork base [] gap gap
  | changed {base start stop : Nat} {spans : List Span} {b c : Text} (gap was now : Text)
      (starts : start = base + Text.size gap) (stops : stop = start + Text.size now)
      (rest : Patchwork stop spans b c) :
      Patchwork base (⟨start, stop⟩ :: spans) (gap ++ (was ++ b)) (gap ++ (now ++ c))

-- A span that holds the replaced bytes grows with them; one that lies apart keeps its length.
def Replacement.stretch (r : Replacement) (s : Span) : Span :=
  ⟨if s.start ≤ r.old.start then s.start else s.start - r.old.stop + r.new.stop,
    if s.stop < r.old.start then s.stop else s.stop - r.old.stop + r.new.stop⟩

namespace Patchwork

variable {base start stop : Nat} {l : List Span} {b c : Text}

theorem bounds (patched : Patchwork base l b c) :
    ∀ s ∈ l, base ≤ s.start ∧ s.start ≤ s.stop ∧ s.stop ≤ base + Text.size c := by
  induction patched with
  | kept => simp
  | changed gap was now starts stops rest ih =>
    intro s member
    simp only [Text.size_append]
    rcases List.mem_cons.mp member with rfl | later
    · dsimp only
      omega
    · have inside := ih s later
      omega

theorem unchanged (patched : Patchwork base [] b c) : b = c := by
  cases patched
  rfl

theorem front {s : Text} (patched : Patchwork base l b (s ++ c))
    (before : ∀ r ∈ l, base + Text.size s ≤ r.start) : ∃ a, b = s ++ a := by
  generalize whole : s ++ c = t at patched
  cases patched with
  | kept => exact ⟨c, whole.symm⟩
  | changed gap was now starts stops rest =>
    have first := before _ (List.mem_cons_self ..)
    dsimp only at first
    obtain ⟨between, rfl, -⟩ := Text.halves_of_le whole (by omega)
    exact ⟨between ++ (was ++ _), by rw [List.append_assoc]⟩

theorem back {a s : Text} (patched : Patchwork base l b (a ++ s))
    (behind : ∀ r ∈ l, r.stop ≤ base + Text.size a) : ∃ d, b = d ++ s := by
  generalize whole : a ++ s = t at patched
  induction patched generalizing a with
  | kept => exact ⟨a, whole.symm⟩
  | changed gap was now starts stops rest ih =>
    rename_i b c
    have first := behind _ (List.mem_cons_self ..)
    dsimp only at first
    have parted : (gap ++ now) ++ c = a ++ s := by rw [List.append_assoc, whole]
    obtain ⟨between, rfl, tail⟩ := Text.halves_of_le parted (by
      rw [Text.size_append]
      omega)
    obtain ⟨d, rfl⟩ := ih (fun r member => by
      have last := behind r (by simp [member])
      rw [Text.size_append, Text.size_append] at last
      omega) tail.symm
    exact ⟨gap ++ (was ++ d), by simp only [List.append_assoc]⟩

theorem moved {n : Nat} (patched : Patchwork (base + n) l b c) (other : Nat) :
    Patchwork (other + n)
      (l.map fun s => ⟨s.start - base + other, s.stop - base + other⟩) b c := by
  generalize at_base : base + n = first at patched
  induction patched generalizing n with
  | kept => exact .kept _ _
  | changed gap was now starts stops rest ih =>
    rename_i start stop _ _ _
    have later := ih (n := stop - base) (by omega)
    rw [Nat.add_comm other] at later
    refine .changed gap was now ?_ ?_ later
    · dsimp only
      omega
    · dsimp only
      omega

-- A span that already reaches up to the base takes in every span it meets, with the text between.
theorem absorb (gap was now first last : Text) (patched : Patchwork base l b c)
    (whole : c = first ++ last) (ends : stop = base + Text.size first)
    (starts : start = n + Text.size gap) (stops : base = start + Text.size now) :
    Patchwork n (SpanSet.place ⟨start, stop⟩ l) (gap ++ (was ++ b)) (gap ++ (now ++ c)) := by
  induction patched generalizing was now first last stop with
  | kept base kept =>
    subst whole
    have grown : Patchwork n [⟨start, stop⟩] _ _ :=
      .changed gap (was ++ first) (now ++ first) starts (by rw [Text.size_append]; omega)
        (.kept _ last)
    simpa only [List.append_assoc, SpanSet.place] using grown
  | changed between old new between_starts between_stops rest ih =>
    simp only [SpanSet.place]
    rw [if_neg (by omega)]
    split
    · obtain ⟨others, gap_parts, tail⟩ := Text.halves_of_le (a := first) whole.symm (by omega)
      subst gap_parts
      rw [Text.size_append] at between_starts
      have grown : Patchwork n (⟨start, stop⟩ :: _ :: _) _ _ :=
        .changed gap (was ++ first) (now ++ first) starts (by rw [Text.size_append]; omega)
          (.changed others old new (by omega) between_stops rest)
      simpa only [List.append_assoc] using grown
    · rename_i start' stop' _ _ _ _
      have hull : Span.hull ⟨start, stop⟩ ⟨start', stop'⟩ = ⟨start, max stop stop'⟩ := by
        rw [Span.hull, Nat.min_eq_left]
        dsimp only
        omega
      rw [hull]
      by_cases longer : stop' ≤ stop
      · have within : Text.size (between ++ new) ≤ Text.size first := by
          rw [Text.size_append]
          omega
        rw [← List.append_assoc] at whole
        obtain ⟨others, first_parts, tail⟩ := Text.halves_of_le whole within
        rw [first_parts, Text.size_append, Text.size_append] at ends
        have grown : Patchwork n (SpanSet.place ⟨start, stop⟩ _) _ _ :=
          ih (was ++ (between ++ old)) (now ++ (between ++ new)) others last tail (by omega)
            (by simp only [Text.size_append]; omega)
        rw [Nat.max_eq_left longer]
        simpa only [List.append_assoc] using grown
      · have grown := ih (was ++ (between ++ old)) (now ++ (between ++ new)) [] _ rfl rfl
          (by simp only [Text.size_append]; omega)
        rw [Nat.max_eq_right (by omega)]
        simpa only [List.append_assoc, Text.size_nil, Nat.add_zero] using grown

theorem place {before inside behind : Text} (patched : Patchwork base l b c)
    (whole : c = before ++ (inside ++ behind)) (starts : start = base + Text.size before)
    (stops : stop = start + Text.size inside) :
    Patchwork base (SpanSet.place ⟨start, stop⟩ l) b c := by
  induction patched generalizing before with
  | kept base kept =>
    subst whole
    exact .changed before inside inside starts stops (.kept _ behind)
  | changed gap was now gap_starts gap_stops rest ih =>
    rename_i base start' stop' _ b' c'
    simp only [SpanSet.place]
    split
    · rename_i later
      rw [← List.append_assoc] at whole
      obtain ⟨others, parts, tail⟩ := Text.halves_of_le whole (by
        rw [Text.size_append]
        omega)
      refine .changed gap was now gap_starts gap_stops (ih tail ?_)
      rw [parts, Text.size_append, Text.size_append] at starts
      omega
    · split
      · rename_i sooner
        have parted := whole.symm
        rw [← List.append_assoc] at parted
        obtain ⟨others, parts, tail⟩ := Text.halves_of_le parted (by
          rw [Text.size_append]
          omega)
        have joined : Patchwork base (⟨start, stop⟩ :: ⟨start', stop'⟩ :: _)
            (before ++ (inside ++ (others ++ (was ++ b')))) _ :=
          .changed before inside inside starts stops
            (.changed others was now (by
              rw [parts, Text.size_append, Text.size_append] at gap_starts
              omega) gap_stops rest)
        rw [parts]
        simpa only [List.append_assoc] using joined
      · rename_i late early
        have front : ∃ first others, gap = first ++ others ∧
            min start start' = base + Text.size first := by
          by_cases sooner : start ≤ start'
          · obtain ⟨others, parts, -⟩ := Text.halves_of_le whole.symm (by omega)
            exact ⟨before, others, parts, by omega⟩
          · exact ⟨gap, [], by simp, by omega⟩
        have back : ∃ first last, c' = first ++ last ∧
            max stop stop' = stop' + Text.size first := by
          by_cases later : stop' ≤ stop
          · rw [← List.append_assoc, ← List.append_assoc] at whole
            obtain ⟨others, parts, tail⟩ := Text.halves_of_le whole (by
              rw [Text.size_append, Text.size_append]
              omega)
            have sizes := congrArg Text.size parts
            simp only [Text.size_append] at sizes
            exact ⟨others, behind, tail, by omega⟩
          · exact ⟨[], c', rfl, by rw [Text.size_nil]; omega⟩
        obtain ⟨first, others, rfl, lower⟩ := front
        obtain ⟨second, last, parts, upper⟩ := back
        rw [Text.size_append] at gap_starts
        have grown := absorb first (others ++ was) (others ++ now) second last rest parts
          upper lower (by rw [Text.size_append]; omega)
        simpa only [Span.hull, List.append_assoc] using grown

theorem stretched {r : Replacement} {n : Nat} (patched : Patchwork (r.old.stop + n) l b c)
    (proper : r.old.start ≤ r.old.stop) (behind : ∀ s ∈ l, r.old.stop < s.start) :
    Patchwork (r.new.stop + n) (l.map r.stretch) b c := by
  have same : l.map r.stretch = l.map fun s =>
      ⟨s.start - r.old.stop + r.new.stop, s.stop - r.old.stop + r.new.stop⟩ := by
    apply List.map_congr_left
    intro s member
    have beyond := behind s member
    have inside := patched.bounds s member
    rw [Replacement.stretch, if_neg (by omega), if_neg (by omega)]
  rw [same]
  exact patched.moved r.new.stop

theorem replaced (left inserted : Text) {old right : Text} {r : Replacement}
    (patched : Patchwork base l b (left ++ (old ++ right))) (canonical : SpanSet.Canonical l)
    (starts : r.old.start = base + Text.size left)
    (stops : r.old.stop = r.old.start + Text.size old)
    (grown : r.new.stop = r.old.start + Text.size inserted)
    (held : ∃ s ∈ l, s.start ≤ r.old.start ∧ r.old.stop ≤ s.stop) :
    Patchwork base (l.map r.stretch) b (left ++ (inserted ++ right)) := by
  generalize whole : left ++ (old ++ right) = c at patched
  induction patched generalizing left with
  | kept => simp at held
  | changed gap was now gap_starts gap_stops rest ih =>
    rename_i base start stop spans b' c'
    obtain ⟨s, member, lower, upper⟩ := held
    rcases List.mem_cons.mp member with rfl | later
    · dsimp only at lower upper
      obtain ⟨first, rfl, parted⟩ := Text.halves_of_le whole.symm (by omega)
      rw [Text.size_append] at starts
      have within : (first ++ old) ++ right = now ++ c' := by rw [List.append_assoc, parted]
      obtain ⟨last, rfl, rfl⟩ := Text.halves_of_le within (by
        rw [Text.size_append]
        omega)
      simp only [Text.size_append] at gap_stops
      have behind : ∀ s ∈ spans, r.old.stop < s.start := by
        intro s member
        have apart := canonical.apart s member
        dsimp only at apart
        omega
      have tail : Patchwork (r.old.stop + Text.size last) spans b' c' := by
        rw [stops, starts, show base + (Text.size gap + Text.size first) + Text.size old +
          Text.size last = stop by omega]
        exact rest
      have shifted := tail.stretched (by omega) behind
      have own : r.stretch ⟨start, stop⟩ = ⟨start, r.new.stop + Text.size last⟩ := by
        simp only [Replacement.stretch, Span.mk.injEq]
        rw [if_pos (by omega), if_neg (by omega)]
        omega
      rw [List.map_cons, own]
      have joined : Patchwork base (⟨start, r.new.stop + Text.size last⟩ :: _) _ _ :=
        .changed gap was (first ++ (inserted ++ last)) gap_starts
          (by simp only [Text.size_append]; omega) shifted
      simpa only [List.append_assoc] using joined
    · have apart := canonical.apart s later
      dsimp only at apart
      have parted : (gap ++ now) ++ c' = left ++ (old ++ right) := by rw [List.append_assoc, whole]
      obtain ⟨others, rfl, tail⟩ := Text.halves_of_le parted (by
        rw [Text.size_append]
        omega)
      simp only [Text.size_append] at starts
      have inner := ih others canonical.tail (by omega) ⟨s, later, lower, upper⟩ tail.symm
      have same : r.stretch ⟨start, stop⟩ = ⟨start, stop⟩ := by
        rw [Replacement.stretch, if_pos (by dsimp only; omega), if_pos (by dsimp only; omega)]
      rw [List.map_cons, same]
      simpa only [List.append_assoc] using changed gap was now gap_starts gap_stops inner

end Patchwork

end LiveHighlight
