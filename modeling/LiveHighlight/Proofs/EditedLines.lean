import LiveHighlight.Proofs.Editing
import LiveHighlight.Proofs.LineStarts

-- The line index after an edit is the one of the text after it, whatever terminators the edit
-- joins or parts: only the two seams have to be decided by their neighbours.

namespace LiveHighlight

namespace LineIndex

variable {starts own : List Nat} {offset n : Nat}

theorem mem_enter : n ∈ enter offset starts ↔ n = offset ∨ n ∈ starts := by
  induction starts with
  | nil => simp [enter]
  | cons s rest ih =>
    simp only [enter]
    split
    · rw [List.mem_cons, List.mem_cons, ih]
      exact or_left_comm
    · split
      · rename_i equal
        subst equal
        simp
      · rw [List.mem_cons]

theorem enter_sorted (sorted : starts.Pairwise (· < ·)) :
    (enter offset starts).Pairwise (· < ·) := by
  induction starts with
  | nil => exact List.pairwise_singleton _ _
  | cons s rest ih =>
    obtain ⟨first, others⟩ := List.pairwise_cons.mp sorted
    simp only [enter]
    split
    · rename_i before
      refine List.pairwise_cons.mpr ⟨?_, ih others⟩
      intro n present
      rcases mem_enter.mp present with rfl | old
      · exact before
      · exact first n old
    · split
      · exact sorted
      · rename_i reached apart
        refine List.pairwise_cons.mpr ⟨?_, sorted⟩
        intro n present
        rcases List.mem_cons.mp present with rfl | later
        · omega
        · have behind := first n later
          omega

theorem mem_settle : n ∈ settle offset isStart starts ↔
    (n = offset ∧ isStart = true) ∨ (n ≠ offset ∧ n ∈ starts) := by
  cases isStart with
  | true =>
    simp only [settle, if_true, mem_enter, and_true]
    by_cases equal : n = offset <;> simp [equal]
  | false => simp [settle, and_comm]

theorem settle_sorted (sorted : starts.Pairwise (· < ·)) :
    (settle offset isStart starts).Pairwise (· < ·) := by
  unfold settle
  split
  · exact enter_sorted sorted
  · exact sorted.filter _

theorem mem_enterAll : n ∈ own.foldl (fun starts s => enter s starts) starts ↔
    n ∈ own ∨ n ∈ starts := by
  induction own generalizing starts with
  | nil => simp
  | cons s rest ih =>
    rw [List.foldl_cons, ih, mem_enter, List.mem_cons]
    constructor
    · rintro (later | rfl | old)
      · exact .inl (.inr later)
      · exact .inl (.inl rfl)
      · exact .inr old
    · rintro ((rfl | later) | old)
      · exact .inr (.inl rfl)
      · exact .inl later
      · exact .inr (.inr old)

theorem enterAll_sorted (sorted : starts.Pairwise (· < ·)) :
    (own.foldl (fun starts s => enter s starts) starts).Pairwise (· < ·) := by
  induction own generalizing starts with
  | nil => exact sorted
  | cons s rest ih => exact ih (enter_sorted sorted)

end LineIndex

namespace Document
open LineIndex

section Patch

variable {left old inserted right : Text} {delta : Int} {starts : List Nat}
  {start stop newStop n : Nat}

def movedStarts (starts : List Nat) (start stop : Nat) (delta : Int) : List Nat :=
  shiftFrom stop delta (starts.filter fun s => !(start < s && s ≤ stop))

theorem mem_moved : n ∈ movedStarts starts start stop delta ↔
    ∃ s ∈ starts, (s ≤ start ∨ stop < s) ∧ (if stop ≤ s then (s + delta).toNat else s) = n := by
  simp only [movedStarts, shiftFrom, List.mem_map, List.mem_filter, Bool.not_eq_true',
    Bool.and_eq_false_iff, decide_eq_false_iff_not, Nat.not_lt, Nat.not_le, and_assoc]

theorem moved_sorted (sorted : starts.Pairwise (· < ·)) (ordered : start ≤ stop)
    (grown : (stop : Int) + delta = newStop) (forward : start ≤ newStop) :
    (movedStarts starts start stop delta).Pairwise (· < ·) := by
  unfold movedStarts shiftFrom
  rw [List.pairwise_map]
  refine (sorted.filter _).imp_of_mem ?_
  intro a b first second less
  simp only [List.mem_filter, Bool.not_eq_true', Bool.and_eq_false_iff, decide_eq_false_iff_not,
    Nat.not_lt, Nat.not_le] at first second
  split <;> split <;> omega

theorem moved_front (exact : ∀ s, s ∈ starts ↔ StartsAt (left ++ (old ++ right)) s)
    (grown : (Text.size left + Text.size old : Int) + delta =
      Text.size left + Text.size inserted) (front : n < Text.size left) :
    n ∈ movedStarts starts (Text.size left) (Text.size left + Text.size old) delta ↔
      StartsAt (left ++ (inserted ++ right)) n := by
  rw [mem_moved]
  constructor
  · rintro ⟨s, present, kept, place⟩
    have same : s = n := by
      split at place <;> omega
    subst same
    exact startsAt_before front ((exact s).mp present) _
  · intro starts
    refine ⟨n, (exact n).mpr (startsAt_before front starts _), .inl (by omega), ?_⟩
    rw [if_neg (by omega)]

theorem moved_back (exact : ∀ s, s ∈ starts ↔ StartsAt (left ++ (old ++ right)) s)
    (grown : (Text.size left + Text.size old : Int) + delta =
      Text.size left + Text.size inserted)
    (back : Text.size left + Text.size inserted < n) :
    n ∈ movedStarts starts (Text.size left) (Text.size left + Text.size old) delta ↔
      StartsAt (left ++ (inserted ++ right)) n := by
  have after : StartsAt (left ++ (inserted ++ right)) n ↔
      StartsBehind (Text.size left + Text.size inserted) right n := by
    rw [← List.append_assoc, ← Text.size_append]
    exact startsAt_behind (by rwa [Text.size_append])
  have before : ∀ s, Text.size left + Text.size old < s → (s ∈ starts ↔
      StartsBehind (Text.size left + Text.size old) right s) := by
    intro s behind
    rw [exact, ← List.append_assoc, ← Text.size_append]
    exact startsAt_behind (by rwa [Text.size_append])
  rw [mem_moved, after]
  constructor
  · rintro ⟨s, present, kept, place⟩
    have behind : Text.size left + Text.size old < s := by
      split at place <;> omega
    have moved := startsBehind_shift ((before s behind).mp present)
      (Text.size left + Text.size inserted)
    rw [if_pos (by omega)] at place
    have same : n = s - (Text.size left + Text.size old) +
        (Text.size left + Text.size inserted) := by omega
    rwa [same]
  · intro starts
    have moved := startsBehind_shift starts (Text.size left + Text.size old)
    have behind := startsBehind_later moved
    refine ⟨_, (before _ behind).mpr moved, .inr behind, ?_⟩
    rw [if_pos (by omega)]
    omega

theorem moved_gap (grown : (stop : Int) + delta = newStop) (first : start < n)
    (last : n < newStop) : n ∉ movedStarts starts start stop delta := by
  rw [mem_moved]
  rintro ⟨s, -, kept, place⟩
  split at place <;> omega

def ownStarts (start newStop : Nat) (inserted : Text) : List Nat :=
  (startsBehind start inserted).filter (· < newStop)

theorem mem_own : n ∈ ownStarts start newStop inserted ↔
    StartsBehind start inserted n ∧ n < newStop := by
  simp [ownStarts, mem_scanned]

theorem own_middle (first : Text.size left < n)
    (last : n < Text.size left + Text.size inserted) :
    n ∈ ownStarts (Text.size left) (Text.size left + Text.size inserted) inserted ↔
      StartsAt (left ++ (inserted ++ right)) n := by
  rw [mem_own, startsAt_behind first, startsBehind_front last]
  exact and_iff_left last

theorem spliced_exact (exact : ∀ s, s ∈ starts ↔ StartsAt (left ++ (old ++ right)) s)
    (grown : (Text.size left + Text.size old : Int) + delta =
      Text.size left + Text.size inserted)
    (first : n ≠ Text.size left) (last : n ≠ Text.size left + Text.size inserted) :
    (n ∈ ownStarts (Text.size left) (Text.size left + Text.size inserted) inserted ∨
      n ∈ movedStarts starts (Text.size left) (Text.size left + Text.size old) delta) ↔
        StartsAt (left ++ (inserted ++ right)) n := by
  by_cases front : n < Text.size left
  · have notOwn : n ∉ ownStarts (Text.size left) (Text.size left + Text.size inserted)
        inserted := by
      intro own
      have later := startsBehind_later (mem_own.mp own).1
      omega
    rw [or_iff_right notOwn, moved_front exact grown front]
  · by_cases back : Text.size left + Text.size inserted < n
    · have notOwn : n ∉ ownStarts (Text.size left) (Text.size left + Text.size inserted)
          inserted := by
        intro own
        have earlier := (mem_own.mp own).2
        omega
      rw [or_iff_right notOwn, moved_back exact grown back]
    · have inside : Text.size left < n := by omega
      have ends : n < Text.size left + Text.size inserted := by omega
      rw [or_iff_left (moved_gap (by omega) inside ends), own_middle inside ends]

theorem first_seam : StartsAt (left ++ (inserted ++ right)) (Text.size left) ↔
    startsBetween left.getLast? (inserted.head?.or right.head?) = true := by
  rw [startsAt_seam, List.head?_append]

theorem last_seam :
    StartsAt (left ++ (inserted ++ right)) (Text.size left + Text.size inserted) ↔
      startsBetween (inserted.getLast?.or left.getLast?) right.head? = true := by
  rw [← List.append_assoc, ← Text.size_append, startsAt_seam, List.getLast?_append]

theorem patched_exact
    (grown : (Text.size left + Text.size old : Int) + delta =
      Text.size left + Text.size inserted) :
    patchedLines (.ofText (left ++ (old ++ right)))
      ⟨Text.size left, Text.size left + Text.size old⟩ (Text.size left + Text.size inserted)
      delta left inserted right = .ofText (left ++ (inserted ++ right)) := by
  have sorted : (movedStarts (LineIndex.ofText (left ++ (old ++ right))).starts (Text.size left)
      (Text.size left + Text.size old) delta).Pairwise (· < ·) :=
    moved_sorted (ofText_sorted _) (Nat.le_add_right _ _) grown (Nat.le_add_right _ _)
  apply eq_ofText
  · exact enter_sorted (settle_sorted (settle_sorted (enterAll_sorted sorted)))
  · intro n
    change n ∈ enter 0 (settle _ _ (settle _ _
      ((ownStarts _ _ inserted).foldl (fun starts s => enter s starts)
        (movedStarts _ _ _ delta)))) ↔ _
    rw [mem_enter, mem_settle, mem_settle, mem_enterAll]
    by_cases zero : n = 0
    · subst zero
      simp [startsAt_zero]
    by_cases last : n = Text.size left + Text.size inserted
    · subst last
      simp only [zero, ne_eq, not_true_eq_false, false_and, or_false, true_and, false_or]
      exact last_seam.symm
    by_cases first : n = Text.size left
    · subst first
      simp only [zero, last, ne_eq, not_true_eq_false, not_false_eq_true, false_and, or_false,
        true_and, false_or]
      exact first_seam.symm
    simp only [zero, last, first, ne_eq, not_false_eq_true, false_and, true_and, false_or]
    exact spliced_exact (fun s => mem_ofText) grown first last

end Patch

variable {d next : Document} {e : Edit} {splice : Splice} {edits : List Edit} {after : Text}

def InAgreement (d : Document) : Prop := d.lines = .ofText d.text

def run (d : Document) (edits : List Edit) : Document := edits.foldl take d

theorem point?_ofText (t : Text) (n : Nat) : ∃ p, (LineIndex.ofText t).point? n = some p := by
  have first : (LineIndex.ofText t).starts.takeWhile (· ≤ n) =
      0 :: (startsBehind 0 t).takeWhile (· ≤ n) := by
    simp [LineIndex.ofText]
  simp only [LineIndex.point?, first, List.getLast?_cons]
  exact ⟨_, rfl⟩

theorem growth {left old : Text} (fits : e.Storable)
    (range : e.replaced? = some ⟨Text.size left, Text.size left + Text.size old⟩)
    (length : Text.size e.inserted = e.edited.length) :
    (Text.size left + Text.size old : Int) + e.delta =
      Text.size left + Text.size e.inserted := by
  obtain ⟨-, -, -, lengths⟩ := Edit.replaced?_parts range
  rw [← length, signedLength_eq fits] at lengths
  simp only [Span.length] at lengths
  omega

theorem takes_agrees (valid : d.InAgreement) (fits : e.Storable)
    (taken : Takes d e next splice) : next.InAgreement := by
  obtain ⟨text, lines⟩ := d
  change lines = .ofText text at valid
  subst valid
  cases taken with
  | splice whole range edited =>
    dsimp only at whole
    subst whole
    exact patched_exact (growth fits range (by simp [edited, Span.length]))

theorem take_agrees (valid : d.InAgreement) (fits : e.Storable) : (d.take e).InAgreement := by
  unfold take
  split
  · rename_i accepted
    exact takes_agrees valid fits (edit_exact.mp accepted)
  · exact valid

theorem run_agrees (valid : d.InAgreement) (fits : ∀ e ∈ edits, Edit.Storable e) :
    (d.run edits).InAgreement := by
  induction edits generalizing d with
  | nil => exact valid
  | cons e rest ih =>
    exact ih (take_agrees valid (fits e (by simp)))
      fun x later => fits x (List.mem_cons_of_mem _ later)

theorem edit_accepts (valid : d.InAgreement) (fits : e.Storable)
    (length : Text.size e.inserted = e.edited.length) (turns : e.Turns d.text after) :
    ∃ splice, d.edit e = .ok (.ofText after, splice) := by
  obtain ⟨text, lines⟩ := d
  change lines = .ofText text at valid
  subst valid
  dsimp only at turns
  cases turns with
  | splice left old right range =>
    obtain ⟨start, -, ordered, -⟩ := Edit.replaced?_parts range
    have edited : e.edited = ⟨Text.size left, Text.size left + Text.size e.inserted⟩ := by
      simp only [Span.length] at length start
      have ends : e.edited = ⟨e.edited.start, e.edited.stop⟩ := rfl
      rw [ends, Span.mk.injEq]
      omega
    have patched : patchedLines (.ofText (left ++ (old ++ right)))
        ⟨Text.size left, Text.size left + Text.size old⟩
        (Text.size left + Text.size e.inserted) e.delta left e.inserted right =
          .ofText (left ++ (e.inserted ++ right)) := patched_exact (growth fits range length)
    obtain ⟨first, startPoint⟩ := point?_ofText (left ++ (old ++ right)) (Text.size left)
    obtain ⟨second, oldStopPoint⟩ :=
      point?_ofText (left ++ (old ++ right)) (Text.size left + Text.size old)
    obtain ⟨third, newStopPoint⟩ := point?_ofText (left ++ (e.inserted ++ right))
      (Text.size left + Text.size e.inserted)
    rw [← patched] at newStopPoint
    have taken := Takes.splice (d := ⟨left ++ (old ++ right), .ofText _⟩) rfl range edited
      startPoint oldStopPoint newStopPoint
    rw [patched] at taken
    exact ⟨_, edit_exact.mpr taken⟩

-- After any edits the index is the one of the text, and the next edit either replaces exactly
-- the bytes it names or leaves everything as it was.
theorem mirror_after_edits (t : Text) (edits : List Edit) (e : Edit)
    (held : ∀ x ∈ edits, x.Storable) (fits : e.Storable) :
    ((run (.ofText t) edits).InAgreement ∧ (run (.ofText t) (edits ++ [e])).InAgreement) ∧
      ((∀ next splice, (run (.ofText t) edits).edit e = .ok (next, splice) →
          run (.ofText t) (edits ++ [e]) = next ∧
            e.Turns (run (.ofText t) edits).text next.text) ∧
        (∀ refusal, (run (.ofText t) edits).edit e = .error refusal →
          run (.ofText t) (edits ++ [e]) = run (.ofText t) edits ∧
            ¬ (Text.size e.inserted = e.edited.length ∧
              ∃ after, e.Turns (run (.ofText t) edits).text after))) := by
  have before : (run (.ofText t) edits).InAgreement := run_agrees rfl held
  have last : run (.ofText t) (edits ++ [e]) = (run (.ofText t) edits).take e := by
    simp [run]
  generalize run (.ofText t) edits = d at before last
  rw [last]
  refine ⟨⟨before, take_agrees before fits⟩, ?_, ?_⟩
  · intro next splice accepted
    exact ⟨by simp [take, accepted], takes_turns (edit_exact.mp accepted)⟩
  · intro refusal refused
    refine ⟨by simp [take, refused], ?_⟩
    rintro ⟨length, after, turns⟩
    obtain ⟨splice, accepted⟩ := edit_accepts before fits length turns
    rw [refused] at accepted
    cases accepted

theorem mirror_after_joined_pair :
    (∀ x ∈ [Edit.insert 2 ['\n']], x.Storable) ∧ (Edit.delete 0 1).Storable ∧
      run (.ofText ['a', '\r', 'b']) ([.insert 2 ['\n']] ++ [.delete 0 1]) =
        ⟨['\r', '\n', 'b'], .ofText ['\r', '\n', 'b']⟩ := by
  have held : ∀ x ∈ [Edit.insert 2 ['\n']], x.Storable := by
    intro x present
    cases List.mem_singleton.mp present
    exact (by decide : 1 < 0x8000000000000000)
  have fits : (Edit.delete 0 1).Storable := (by decide : 0 < 0x8000000000000000)
  obtain ⟨⟨-, agreed⟩, -⟩ := mirror_after_edits ['a', '\r', 'b'] _ _ held fits
  have text : (run (.ofText ['a', '\r', 'b']) ([.insert 2 ['\n']] ++ [.delete 0 1])).text =
      ['\r', '\n', 'b'] := by decide
  refine ⟨held, fits, ?_⟩
  unfold InAgreement at agreed
  rw [text] at agreed
  rw [← agreed, ← text]

end Document

end LiveHighlight
