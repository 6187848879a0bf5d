import Mathlib.Data.List.Forall2
import LiveHighlight.Proofs.Searching

-- A scan tests one place after another. Where nothing is found it goes on by one character, and
-- from what it finds it jumps ahead.

namespace LiveHighlight

inductive Move (α : Type) where
  | on
  | jump (target : Cursor) (found : List α)

inductive Scan {α : Type} (step : Cursor → Move α) : Cursor → List α → Prop where
  | stay {c : Cursor} (nothing : step c = .on) (last : c.rest = []) : Scan step c []
  | skip {c d : Cursor} {l : List α} (nothing : step c = .on) (more : c.next? = some d)
      (rest : Scan step d l) : Scan step c l
  | jump {c d : Cursor} {l k : List α} (found : step c = .jump d l) (rest : Scan step d k) :
      Scan step c (l ++ k)

inductive Move.Alike {α β : Type} (R : Cursor → Cursor → Prop) (E : α → β → Prop) :
    Move α → Move β → Prop where
  | on : Alike R E .on .on
  | jump {d d' : Cursor} {l : List α} {l' : List β} (target : R d d') (found : List.Forall₂ E l l') :
      Alike R E (.jump d l) (.jump d' l')

namespace Scan

variable {α β : Type} {step : Cursor → Move α} {step' : Cursor → Move β} {c c' d : Cursor}
  {l k : List α} {tail : List β} {R : Cursor → Cursor → Prop} {E : α → β → Prop}

theorem next?_rest {x : Char} {rest : Text} (head : c.rest = x :: rest) :
    c.next? = some (c.advance x rest) := by
  unfold Cursor.next?
  rw [head]

theorem next?_last (last : c.rest = []) : c.next? = none := by
  unfold Cursor.next?
  rw [last]

theorem skipped (scan : Scan step c l) (nothing : step c = .on) (more : c.next? = some d) :
    Scan step d l := by
  cases scan with
  | stay _ last => simp [next?_last last] at more
  | skip _ again rest =>
    cases more.symm.trans again
    exact rest
  | jump found => simp [nothing] at found

theorem jumped (scan : Scan step c l) (found : step c = .jump d k) :
    ∃ rest, l = k ++ rest ∧ Scan step d rest := by
  cases scan with
  | stay nothing => simp [nothing] at found
  | skip nothing => simp [nothing] at found
  | jump again rest =>
    cases again.symm.trans found
    exact ⟨_, rfl, rest⟩

theorem unique (first : Scan step c l) (second : Scan step c k) : l = k := by
  induction first generalizing k with
  | stay nothing last =>
    cases second with
    | stay => rfl
    | skip _ more => simp [next?_last last] at more
    | jump found => simp [nothing] at found
  | skip nothing more rest ih => exact ih (second.skipped nothing more)
  | jump found rest ih =>
    obtain ⟨others, rfl, onward⟩ := second.jumped found
    rw [ih onward]

-- Where the one text ends, the other may go on with more to find.
theorem carry (moves : ∀ c c', R c c' → c.rest ≠ [] → Move.Alike R E (step c) (step' c'))
    (nexts : ∀ c c' d, R c c' → c.next? = some d → ∃ d', c'.next? = some d' ∧ R d d')
    (ends : ∀ c c', R c c' → c.rest = [] → step c = .on ∧ Scan step' c' tail)
    (scan : Scan step c l) (related : R c c') :
    ∃ l', List.Forall₂ E l l' ∧ Scan step' c' (l' ++ tail) := by
  induction scan generalizing c' with
  | stay nothing last => exact ⟨[], .nil, (ends _ _ related last).2⟩
  | skip nothing more rest ih =>
    rename_i c d l
    obtain ⟨d', again, onward⟩ := nexts c c' d related more
    obtain ⟨l', same, scan'⟩ := ih onward
    have held : c.rest ≠ [] := fun last => by simp [next?_last last] at more
    have move := moves c c' related held
    rw [nothing] at move
    generalize here : step' c' = move' at move
    cases move
    exact ⟨l', same, .skip here again scan'⟩
  | jump found rest ih =>
    rename_i c d l k
    have held : c.rest ≠ [] := fun last => by
      have away := (ends c c' related last).1
      simp [found] at away
    have move := moves c c' related held
    rw [found] at move
    generalize here : step' c' = move' at move
    cases move with
    | jump target same =>
      obtain ⟨k', others, scan'⟩ := ih target
      refine ⟨_ ++ k', List.rel_append same others, ?_⟩
      rw [List.append_assoc]
      exact .jump here scan'

def Strict (step : Cursor → Move Span) : Prop :=
  ∀ c d l, step c = .jump d l →
    c.Leads (fun _ => True) d ∧ c.offset < d.offset ∧ (l = [] ∨ l = [⟨c.offset, d.offset⟩])

variable {walk : Cursor → Move Span} {spans : List Span}

theorem next?_leads (more : c.next? = some d) : c.Leads (fun _ => True) d := by
  cases ahead : c.rest with
  | nil => simp [next?_last ahead] at more
  | cons x rest =>
    cases (next?_rest ahead).symm.trans more
    exact Cursor.leads_advance ahead trivial

theorem within (strict : Strict walk) (scan : Scan walk c spans) :
    ∀ s ∈ spans, c.offset ≤ s.start ∧ s.start < s.stop ∧
      s.stop ≤ c.offset + Text.size c.rest := by
  induction scan with
  | stay => simp
  | skip nothing more rest ih =>
    intro s member
    have inside := ih s member
    have leads := next?_leads more
    have first := leads.offset
    have last := leads.text_end
    omega
  | jump found rest ih =>
    obtain ⟨leads, moved, finds⟩ := strict _ _ _ found
    have last := leads.text_end
    intro s member
    rcases List.mem_append.mp member with here | later
    · rcases finds with rfl | rfl
      · cases here
      · cases List.mem_singleton.mp here
        dsimp only
        omega
    · have inside := ih s later
      omega

end Scan

end LiveHighlight
