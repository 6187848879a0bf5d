import LiveHighlight.Document
import LiveHighlight.Proofs.Cutting

-- What an accepted edit does, as a rule of its own beside the function that carries it out.

namespace LiveHighlight

-- No text takes more bytes than a signed offset can count.
def Edit.Storable (e : Edit) : Prop := Text.size e.inserted < 0x8000000000000000

theorem signedLength_eq (fits : n < 0x8000000000000000) : signedLength n = n := by
  simp only [signedLength, offsetLimit]
  rw [Int.bmod_eq_of_le] <;> omega

namespace Edit

theorem replaced?_parts (range : replaced? e = some r) :
    r.start = e.edited.start ∧ r.start ≤ r.stop ∧ e.edited.start ≤ e.edited.stop ∧
      (r.length : Int) = signedLength e.edited.length - e.delta := by
  unfold replaced? at range
  split at range
  · cases range
  · dsimp only at range
    split at range
    · rename_i fits
      cases Option.some.inj range
      refine ⟨rfl, by simp, by omega, ?_⟩
      simp only [Span.length, Nat.add_sub_cancel_left] at fits ⊢
      exact Int.toNat_of_nonneg fits.1
    · cases range

inductive Turns (e : Edit) : Text → Text → Prop where
  | splice (left old right : Text)
      (range : e.replaced? = some ⟨Text.size left, Text.size left + Text.size old⟩) :
      Turns e (left ++ (old ++ right)) (left ++ (e.inserted ++ right))

end Edit

namespace Document

inductive Takes (d : Document) (e : Edit) : Document → Splice → Prop where
  | splice {left old right : Text} {first second third : Point}
      (whole : d.text = left ++ (old ++ right))
      (range : e.replaced? = some ⟨Text.size left, Text.size left + Text.size old⟩)
      (edited : e.edited = ⟨Text.size left, Text.size left + Text.size e.inserted⟩)
      (startPoint : d.lines.point? (Text.size left) = some first)
      (oldStopPoint : d.lines.point? (Text.size left + Text.size old) = some second)
      (newStopPoint : (patchedLines d.lines ⟨Text.size left, Text.size left + Text.size old⟩
        (Text.size left + Text.size e.inserted) e.delta left e.inserted right).point?
          (Text.size left + Text.size e.inserted) = some third) :
      Takes d e
        ⟨left ++ (e.inserted ++ right),
          patchedLines d.lines ⟨Text.size left, Text.size left + Text.size old⟩
            (Text.size left + Text.size e.inserted) e.delta left e.inserted right⟩
        ⟨Text.size left, Text.size left + Text.size old, Text.size left + Text.size e.inserted,
          first, second, third⟩

theorem locate?_parts (found : locate? d e = some (replaced, left, old, right)) :
    d.text = left ++ (old ++ right) ∧
      replaced = ⟨Text.size left, Text.size left + Text.size old⟩ ∧
      e.replaced? = some replaced ∧
      e.edited = ⟨Text.size left, Text.size left + Text.size e.inserted⟩ := by
  unfold locate? at found
  split at found
  · rename_i length
    split at found
    · cases found
    · rename_i range
      obtain ⟨⟨a, b, c⟩, parts, equal⟩ := Option.map_eq_some_iff.mp found
      cases equal
      obtain ⟨whole, start, stop⟩ := Text.split?_exact.mp parts
      obtain ⟨same, -, ordered, -⟩ := Edit.replaced?_parts range
      have place : replaced = ⟨Text.size left, Text.size left + Text.size old⟩ := by
        rw [stop, start]
      refine ⟨whole, place, range, ?_⟩
      simp only [Span.length] at length
      have ends : e.edited = ⟨e.edited.start, e.edited.stop⟩ := rfl
      rw [ends, Span.mk.injEq]
      omega
  · cases found

theorem locate?_complete (whole : d.text = left ++ (old ++ right))
    (range : e.replaced? = some ⟨Text.size left, Text.size left + Text.size old⟩)
    (edited : e.edited = ⟨Text.size left, Text.size left + Text.size e.inserted⟩) :
    locate? d e =
      some (⟨Text.size left, Text.size left + Text.size old⟩, left, old, right) := by
  have length : Text.size e.inserted = e.edited.length := by simp [edited, Span.length]
  have parts : Text.split? d.text ⟨Text.size left, Text.size left + Text.size old⟩ =
      some (left, old, right) := Text.split?_exact.mpr ⟨whole, rfl, rfl⟩
  simp [locate?, ← length, range, parts]

theorem edit_exact : edit d e = .ok (next, splice) ↔ Takes d e next splice := by
  constructor
  · intro accepted
    unfold edit at accepted
    split at accepted
    · cases accepted
    · rename_i found
      obtain ⟨whole, rfl, range, edited⟩ := locate?_parts found
      split at accepted
      · cases accepted
      · rename_i first
        split at accepted
        · cases accepted
        · rename_i second
          dsimp only at accepted first second
          rw [edited] at accepted
          split at accepted
          · cases accepted
          · rename_i third
            cases Except.ok.inj accepted
            rw [List.append_assoc]
            exact .splice whole range edited first second third
  · intro taken
    cases taken with
    | splice whole range edited first second third =>
      have found := locate?_complete whole range edited
      have stop : e.edited.stop = _ := congrArg Span.stop edited
      dsimp only at stop
      simp [edit, found, first, second, stop, third, List.append_assoc]

theorem takes_turns (taken : Takes d e next splice) : e.Turns d.text next.text := by
  cases taken with
  | splice whole range => rw [whole]; exact .splice _ _ _ range

def take (d : Document) (e : Edit) : Document :=
  match d.edit e with
  | .ok (next, _) => next
  | .error _ => d

end Document

end LiveHighlight
