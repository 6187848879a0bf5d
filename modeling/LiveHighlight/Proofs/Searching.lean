import LiveHighlight.Pattern.Search
import LiveHighlight.Proofs.Cutting

-- A search moves forward only: what it finds lies ahead, and it never forgets a place it tried.

namespace LiveHighlight

namespace Cursor

variable {c d e : Cursor} {ok : Char → Prop}

theorem same_place (before : c.before = d.before) (rest : c.rest = d.rest) : c = d := by
  obtain ⟨front, behind, offset, exact_offset⟩ := c
  obtain ⟨front', behind', offset', exact_offset'⟩ := d
  cases before
  cases rest
  simp only [Cursor.mk.injEq, true_and]
  rw [exact_offset, exact_offset']

-- The second place is reached from the first one past certain characters only.
def Leads (ok : Char → Prop) (c d : Cursor) : Prop :=
  ∃ passed, (∀ x ∈ passed, ok x) ∧ c.rest = passed ++ d.rest ∧
    d.before = passed.reverse ++ c.before

theorem leads_self (c : Cursor) : Leads ok c c := ⟨[], by simp, rfl, rfl⟩

theorem Leads.trans (first : Leads ok c d) (second : Leads ok d e) : Leads ok c e := by
  obtain ⟨u, taken, rest, before⟩ := first
  obtain ⟨v, others, behind, front⟩ := second
  refine ⟨u ++ v, ?_, ?_, ?_⟩
  · intro x member
    rcases List.mem_append.mp member with here | there
    · exact taken x here
    · exact others x there
  · rw [rest, behind, List.append_assoc]
  · rw [front, before, List.reverse_append, List.append_assoc]

theorem leads_advance {x : Char} {rest : Text} (head : c.rest = x :: rest) (taken : ok x) :
    Leads ok c (c.advance x rest) := ⟨[x], by simpa using taken, head, rfl⟩

theorem Leads.offset (leads : Leads ok c d) : c.offset ≤ d.offset := by
  obtain ⟨u, -, -, before⟩ := leads
  rw [c.offset_eq, d.offset_eq, before, Text.size_append]
  omega

theorem Leads.text_end (leads : Leads ok c d) :
    c.offset + Text.size c.rest = d.offset + Text.size d.rest := by
  obtain ⟨u, -, rest, before⟩ := leads
  rw [c.offset_eq, d.offset_eq, rest, before]
  simp only [Text.size_append, Text.size_reverse]
  omega

theorem Leads.length_le (leads : Leads ok c d) : d.rest.length ≤ c.rest.length := by
  obtain ⟨u, -, rest, -⟩ := leads
  rw [rest, List.length_append]
  omega

theorem Leads.same_of_length (leads : Leads ok c d) (same : d.rest.length = c.rest.length) :
    c = d := by
  obtain ⟨u, -, rest, before⟩ := leads
  have lengths := congrArg List.length rest
  rw [List.length_append] at lengths
  have nothing : u = [] := List.eq_nil_of_length_eq_zero (by omega)
  subst nothing
  exact same_place (by simpa using before.symm) (by simpa using rest)

theorem Leads.same_of_offset (leads : Leads ok c d) (same : c.offset = d.offset) : c = d := by
  apply leads.same_of_length
  obtain ⟨u, -, rest, before⟩ := leads
  rw [c.offset_eq, d.offset_eq, before, Text.size_append, Text.size_reverse] at same
  have nothing : u = [] := Text.size_eq_zero.mp (by omega)
  rw [rest, nothing, List.nil_append]

theorem Leads.offset_lt (leads : Leads ok c d) (fewer : d.rest.length < c.rest.length) :
    c.offset < d.offset := by
  refine Nat.lt_of_le_of_ne leads.offset fun same => ?_
  rw [leads.same_of_offset same] at fewer
  exact Nat.lt_irrefl _ fewer

end Cursor

namespace Pattern

namespace Step

variable {ok : Char → Prop} {s t : Step} {id : Nat} {c : Cursor} {g : Groups} {tried : Tried}
  {o : Outcome}

structure Onward (ok : Char → Prop) (c : Cursor) (tried : Tried) (o : Outcome) : Prop where
  kept : ∀ e ∈ tried, e ∈ o.2
  added : ∀ e ∈ o.2, e ∈ tried ∨ c.offset ≤ e.2
  ends : ∀ d g, o.1 = some (d, g) → c.Leads ok d

def Forward (ok : Char → Prop) (s : Step) : Prop := ∀ c g tried, Onward ok c tried (s c g tried)

theorem onward_failed : Onward ok c tried (none, tried) :=
  ⟨fun _ member => member, fun _ member => .inl member, by simp⟩

theorem forward_fail : Forward ok fail := fun _ _ _ => onward_failed

theorem forward_finish : Forward ok finish := fun c g tried =>
  ⟨fun _ member => member, fun _ member => .inl member, fun d h found => by
    cases found
    exact c.leads_self⟩

theorem Onward.later {d : Cursor} {more : Tried} (leads : c.Leads ok d)
    (kept : ∀ e ∈ tried, e ∈ more) (added : ∀ e ∈ more, e ∈ tried ∨ c.offset ≤ e.2)
    (onward : Onward ok d more o) : Onward ok c tried o := by
  refine ⟨fun e member => onward.kept e (kept e member), ?_, ?_⟩
  · intro e member
    rcases onward.added e member with old | new
    · exact added e old
    · have ahead := leads.offset
      exact .inr (by omega)
  · intro d g found
    exact leads.trans (onward.ends d g found)

theorem forward_orElse (first : Forward ok s) (second : Forward ok t) :
    Forward ok (orElse s t) := by
  intro c g tried
  have tries := first c g tried
  unfold orElse
  generalize s c g tried = o at tries
  obtain ⟨result, later⟩ := o
  cases result with
  | some found => exact tries
  | none => exact (second c g later).later c.leads_self tries.kept tries.added

theorem forward_prefer (greedy : Bool) (more : Forward ok s) (less : Forward ok t) :
    Forward ok (prefer greedy s t) := by
  unfold prefer
  split
  · exact forward_orElse more less
  · exact forward_orElse less more

theorem forward_once (forward : Forward ok s) : Forward ok (once id s) := by
  intro c g tried
  unfold once
  split
  · exact onward_failed
  · refine (forward c g _).later c.leads_self ?_ ?_
    · intro e member
      exact List.mem_cons_of_mem _ member
    · intro e member
      rcases List.mem_cons.mp member with rfl | old
      · exact .inr (Nat.le_refl _)
      · exact .inl old

theorem forward_loop {body : Step → Step} (greedy : Bool)
    (goes : ∀ next, Forward ok next → Forward ok (body next)) (leaves : Forward ok s)
    (rounds : Nat) : Forward ok (loop id greedy body s rounds) := by
  induction rounds with
  | zero => exact forward_fail
  | succ rounds ih => exact forward_once (forward_prefer greedy (goes _ ih) leaves)

end Step

def Node.each (set : CharSet → Bool) (look : Look → Bool) : Node → Bool
  | .empty => true
  | .set s => set s
  | .look l => look l
  | .group _ n => n.each set look
  | .seq a b => a.each set look && b.each set look
  | .alt _ a b => a.each set look && b.each set look
  | .opt _ _ n => n.each set look
  | .star _ _ n => n.each set look
  | .plus _ _ n => n.each set look

open Step in
theorem Node.run_forward {ok : Char → Prop} (set : CharSet → Bool) (look : Look → Bool)
    (takes : ∀ s, set s = true → ∀ x, s.contains x = true → ok x) (n : Node)
    (only : n.each set look = true) {next : Step} (goes : Forward ok next) :
    Forward ok (n.run next) := by
  induction n generalizing next with
  | empty => exact goes
  | set s =>
    intro c g tried
    simp only [Node.run]
    split
    · exact onward_failed
    · rename_i x rest head
      split
      · rename_i member
        exact (goes _ g tried).later (Cursor.leads_advance head (takes s only x member))
          (fun _ old => old) (fun _ old => .inl old)
      · exact onward_failed
  | look l =>
    intro c g tried
    simp only [Node.run]
    split
    · exact goes c g tried
    · exact onward_failed
  | group i n ih =>
    intro c g tried
    exact ih only (fun d later tried => goes d _ tried) c g tried
  | seq a b first second =>
    obtain ⟨left, right⟩ := Bool.and_eq_true_iff.mp only
    exact first left (second right goes)
  | alt id a b first second =>
    obtain ⟨left, right⟩ := Bool.and_eq_true_iff.mp only
    exact forward_once (forward_orElse (first left goes) (second right goes))
  | opt id greedy n ih => exact forward_once (forward_prefer greedy (ih only goes) goes)
  | star id greedy n ih =>
    intro c
    exact forward_loop greedy (fun next => ih only) goes _ c
  | plus id greedy n ih =>
    intro c
    exact ih only (forward_loop greedy (fun next => ih only) goes _) c

end Pattern

end LiveHighlight
