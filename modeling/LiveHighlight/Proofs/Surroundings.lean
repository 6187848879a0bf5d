import LiveHighlight.Proofs.Searching

-- A search in a stretch of text sees one character on either side of it, and more only by going
-- there. Two searches in different surroundings go alike until one of them leaves the stretch.

namespace LiveHighlight.Pattern

open Step

theorem isEmpty_head? (t : Text) : t.isEmpty = t.head?.isNone := by cases t <;> rfl

theorem Look.holds_congr {c c' : Cursor} (before : c.before.head? = c'.before.head?)
    (rest : c.rest.head? = c'.rest.head?) (l : Look) : l.holds c = l.holds c' := by
  have starts : c.before.isEmpty = c'.before.isEmpty := by
    rw [isEmpty_head?, isEmpty_head?, before]
  have stops : c.rest.isEmpty = c'.rest.isEmpty := by
    rw [isEmpty_head?, isEmpty_head?, rest]
  cases l <;>
    simp only [Look.holds, Cursor.isLineStart, Cursor.isLineEnd, before, rest, starts, stops]

-- One stretch of text in two surroundings. What stands before it is given nearest first.
structure Frame where
  text : Text
  left : Text
  right : Text
  left' : Text
  right' : Text

namespace Frame

variable {f : Frame} {u z : Text} {c c' d d' : Cursor} {g g' : Groups} {T T' : Tried}
  {o o' : Outcome} {s s' t t' : Step} {id : Nat}

def Closed (f : Frame) : Prop := f.right = [] ∧ f.right' = []

-- With so much of the stretch left, both searches see the same ahead of them.
def Inside (f : Frame) (z : Text) : Prop := z ≠ [] ∨ f.Closed

structure Stands (f : Frame) (u z : Text) (c c' : Cursor) : Prop where
  whole : f.text = u ++ z
  before : c.before = u.reverse ++ f.left
  rest : c.rest = z ++ f.right
  before' : c'.before = u.reverse ++ f.left'
  rest' : c'.rest = z ++ f.right'

theorem Stands.offset (stands : f.Stands u z c c') :
    c.offset = Text.size u + Text.size f.left := by
  rw [c.offset_eq, stands.before, Text.size_append, Text.size_reverse]

theorem Stands.offset' (stands : f.Stands u z c c') :
    c'.offset = Text.size u + Text.size f.left' := by
  rw [c'.offset_eq, stands.before', Text.size_append, Text.size_reverse]

theorem Stands.advance {x : Char} (stands : f.Stands u (x :: z) c c') :
    f.Stands (u ++ [x]) z (c.advance x (z ++ f.right)) (c'.advance x (z ++ f.right')) := by
  refine ⟨?_, ?_, rfl, ?_, rfl⟩
  · rw [stands.whole, List.append_assoc, List.singleton_append]
  · simp [Cursor.advance, stands.before]
  · simp [Cursor.advance, stands.before']

def Recalls (f : Frame) (T T' : Tried) : Prop :=
  ∀ id u z, f.text = u ++ z → f.Inside z →
    T.contains (id, Text.size u + Text.size f.left) =
      T'.contains (id, Text.size u + Text.size f.left')

theorem recalls_nil : f.Recalls [] [] := fun _ _ _ _ _ => rfl

theorem Recalls.mark (recalls : f.Recalls T T') (id : Nat) (u : Text) :
    f.Recalls ((id, Text.size u + Text.size f.left) :: T)
      ((id, Text.size u + Text.size f.left') :: T') := by
  intro id' v z whole inside
  have old := recalls id' v z whole inside
  simp only [List.contains_cons, old]
  congr 1
  rw [Bool.eq_iff_iff]
  simp only [beq_iff_eq, Prod.mk.injEq]
  omega

-- A search that ends beyond the stretch need not tell anything of the other.
inductive Meets (f : Frame) : Outcome → Outcome → Prop where
  | failed {T T' : Tried} (recalls : f.Recalls T T') : Meets f (none, T) (none, T')
  | ended {u z : Text} {c c' : Cursor} {g g' : Groups} {T T' : Tried} (inside : f.Inside z)
      (stands : f.Stands u z c c') : Meets f (some (c, g), T) (some (c', g'), T')
  | strayed {c : Cursor} {g : Groups} {T : Tried} {o : Outcome} (opened : ¬ f.Closed)
      (far : Text.size f.text + Text.size f.left ≤ c.offset) : Meets f (some (c, g), T) o
  | strayed' {c : Cursor} {g : Groups} {T : Tried} {o : Outcome} (opened : ¬ f.Closed)
      (far : Text.size f.text + Text.size f.left' ≤ c.offset) : Meets f o (some (c, g), T)

-- Once both searches have left the stretch they can only fail or end beyond it.
theorem meets_beyond (opened : ¬ f.Closed)
    (far : c.offset = Text.size f.text + Text.size f.left)
    (far' : c'.offset = Text.size f.text + Text.size f.left')
    (onward : Onward (fun _ => True) c T o) (onward' : Onward (fun _ => True) c' T' o')
    (recalls : f.Recalls T T') : f.Meets o o' := by
  obtain ⟨result, later⟩ := o
  obtain ⟨result', later'⟩ := o'
  cases result with
  | some found =>
    have ahead := (onward.ends found.1 found.2 rfl).offset
    exact .strayed opened (by omega)
  | none =>
    cases result' with
    | some found =>
      have ahead := (onward'.ends found.1 found.2 rfl).offset
      exact .strayed' opened (by omega)
    | none =>
      apply Meets.failed
      intro id u z whole inside
      have held : z ≠ [] := inside.resolve_right opened
      have more := Text.size_pos held
      have sizes := congrArg Text.size whole
      rw [Text.size_append] at sizes
      have first : later.contains (id, Text.size u + Text.size f.left) =
          T.contains (id, Text.size u + Text.size f.left) := by
        rw [Bool.eq_iff_iff, List.contains_iff_mem, List.contains_iff_mem]
        refine ⟨fun member => (onward.added _ member).resolve_right ?_, onward.kept _⟩
        dsimp only
        omega
      have second : later'.contains (id, Text.size u + Text.size f.left') =
          T'.contains (id, Text.size u + Text.size f.left') := by
        rw [Bool.eq_iff_iff, List.contains_iff_mem, List.contains_iff_mem]
        refine ⟨fun member => (onward'.added _ member).resolve_right ?_, onward'.kept _⟩
        dsimp only
        omega
      rw [first, second]
      exact recalls id u z whole inside

-- What a step may count on: how much of the stretch is left, and what was tried on either side.
abbrev Known := Text → Tried → Tried → Prop

def Lasting (P : Known) : Prop :=
  ∀ y z T T' more more', P (y ++ z) T T' → (∀ e ∈ T, e ∈ more) → (∀ e ∈ T', e ∈ more') →
    P z more more'

structure Alike (f : Frame) (P : Known) (s s' : Step) : Prop where
  forward : Forward (fun _ => True) s
  forward' : Forward (fun _ => True) s'
  meets : ∀ {u z c c' T T'} (g g' : Groups), f.Inside z → f.Stands u z c c' → f.Recalls T T' →
    P z T T' → f.Meets (s c g T) (s' c' g' T')

variable {P Q : Known}

theorem Alike.weaken (alike : f.Alike P s s') (less : ∀ z T T', Q z T T' → P z T T') :
    f.Alike Q s s' :=
  ⟨alike.forward, alike.forward', fun g g' inside stands recalls known =>
    alike.meets g g' inside stands recalls (less _ _ _ known)⟩

theorem alike_finish : f.Alike P finish finish :=
  ⟨forward_finish, forward_finish, fun _ _ inside stands _ _ => .ended inside stands⟩

theorem alike_orElse (lasting : Lasting P) (first : f.Alike P s s') (second : f.Alike P t t') :
    f.Alike P (orElse s t) (orElse s' t') := by
  refine ⟨forward_orElse first.forward second.forward,
    forward_orElse first.forward' second.forward', ?_⟩
  intro u z c c' T T' g g' inside stands recalls known
  have kept := (first.forward c g T).kept
  have kept' := (first.forward' c' g' T').kept
  have tries := first.meets g g' inside stands recalls known
  unfold orElse
  generalize s c g T = o at kept tries
  generalize s' c' g' T' = o' at kept' tries
  cases tries with
  | failed later =>
    exact second.meets g g' inside stands later (lasting [] z _ _ _ _ known kept kept')
  | ended inner there => exact .ended inner there
  | strayed opened far => exact .strayed opened far
  | strayed' opened far => exact .strayed' opened far

theorem alike_prefer (lasting : Lasting P) (greedy : Bool) (more : f.Alike P s s')
    (less : f.Alike P t t') : f.Alike P (prefer greedy s t) (prefer greedy s' t') := by
  unfold prefer
  split
  · exact alike_orElse lasting more less
  · exact alike_orElse lasting less more

theorem alike_once (alike : f.Alike Q s s')
    (enters : ∀ u z T T', f.text = u ++ z → f.Inside z → P z T T' →
      T.contains (id, Text.size u + Text.size f.left) = false →
      T'.contains (id, Text.size u + Text.size f.left') = false →
      Q z ((id, Text.size u + Text.size f.left) :: T)
        ((id, Text.size u + Text.size f.left') :: T')) :
    f.Alike P (once id s) (once id s') := by
  refine ⟨forward_once alike.forward, forward_once alike.forward', ?_⟩
  intro u z c c' T T' g g' inside stands recalls known
  have same := recalls id u z stands.whole inside
  unfold once
  rw [stands.offset, stands.offset', ← same]
  split
  · exact .failed recalls
  · rename_i fresh
    have first := Bool.eq_false_iff.mpr fresh
    exact alike.meets g g' inside stands (recalls.mark id u)
      (enters u z T T' stands.whole inside known first (same.symm.trans first))

-- A loop has rounds enough: more than places are left, or as many, and this place was tried.
def Enough (f : Frame) (left right : Text) (id rounds : Nat) (z : Text) (T : Tried) : Prop :=
  z.length + right.length < rounds ∨
    (z.length + right.length = rounds ∧
      ∃ u, f.text = u ++ z ∧ (id, Text.size u + Text.size left) ∈ T)

def EnoughRounds (f : Frame) (id rounds rounds' : Nat) : Known := fun z T T' =>
  f.Enough f.left f.right id rounds z T ∧ f.Enough f.left' f.right' id rounds' z T'

theorem enough_later {left right y : Text} {rounds : Nat} {more : Tried}
    (enough : f.Enough left right id rounds (y ++ z) T) (kept : ∀ e ∈ T, e ∈ more) :
    f.Enough left right id rounds z more := by
  unfold Enough at enough ⊢
  rw [List.length_append] at enough
  cases y with
  | nil =>
    rcases enough with fewer | ⟨exactly, u, whole, member⟩
    · exact .inl (by omega)
    · exact .inr ⟨by simpa using exactly, u, by simpa using whole, kept _ member⟩
  | cons x y =>
    rw [List.length_cons] at enough
    exact .inl (by omega)

theorem enough_lasting (lasting : Lasting P) (id rounds rounds' : Nat) :
    Lasting fun z T T' => P z T T' ∧ f.EnoughRounds id rounds rounds' z T T' := by
  intro y z T T' more more' known kept kept'
  obtain ⟨held, enough, enough'⟩ := known
  exact ⟨lasting y z T T' more more' held kept kept', enough_later enough kept,
    enough_later enough' kept'⟩

theorem enough_entered {left right : Text} {rounds : Nat} (whole : f.text = u ++ z)
    (enough : f.Enough left right id (rounds + 1) z T)
    (fresh : T.contains (id, Text.size u + Text.size left) = false) :
    f.Enough left right id rounds z ((id, Text.size u + Text.size left) :: T) := by
  have few : z.length + right.length < rounds + 1 := by
    rcases enough with fewer | ⟨-, v, parts, member⟩
    · exact fewer
    · have same : u = v := List.append_cancel_right (whole.symm.trans parts)
      subst same
      rw [List.contains_iff_mem.mpr member] at fresh
      cases fresh
  rcases Nat.lt_or_eq_of_le (Nat.le_of_lt_succ few) with fewer | exactly
  · exact .inl fewer
  · exact .inr ⟨exactly, u, whole, by simp⟩

-- A loop without rounds left has been at this place before.
theorem enough_spent {left right : Text} (whole : f.text = u ++ z)
    (enough : f.Enough left right id 0 z T) :
    T.contains (id, Text.size u + Text.size left) = true := by
  rcases enough with fewer | ⟨-, v, parts, member⟩
  · omega
  · have same : u = v := List.append_cancel_right (whole.symm.trans parts)
    subst same
    exact List.contains_iff_mem.mpr member

theorem loop_seen {body : Step → Step} {greedy : Bool} {c : Cursor} {g : Groups}
    (seen : T.contains (id, c.offset) = true) (rounds : Nat) :
    loop id greedy body s rounds c g T = (none, T) := by
  cases rounds with
  | zero => rfl
  | succ rounds =>
    rw [loop, once, if_pos seen]

theorem alike_loop (id : Nat) {body : Step → Step} (lasting : Lasting P) (greedy : Bool)
    (goes : ∀ next, Forward (fun _ => True) next → Forward (fun _ => True) (body next))
    (turns : ∀ (Q : Known) next next', Lasting Q → f.Alike Q next next' →
      f.Alike Q (body next) (body next'))
    (leaves : f.Alike P s s') (rounds rounds' : Nat) :
    f.Alike (fun z T T' => P z T T' ∧ f.EnoughRounds id rounds rounds' z T T')
      (loop id greedy body s rounds) (loop id greedy body s' rounds') := by
  induction rounds generalizing rounds' with
  | zero =>
    refine ⟨forward_loop greedy goes leaves.forward _, forward_loop greedy goes leaves.forward' _,
      ?_⟩
    intro u z c c' T T' g g' inside stands recalls known
    have seen := enough_spent stands.whole known.2.1
    have seen' := (recalls id u z stands.whole inside).symm.trans seen
    rw [← stands.offset] at seen
    rw [← stands.offset'] at seen'
    rw [loop_seen seen, loop_seen seen']
    exact .failed recalls
  | succ rounds ih =>
    cases rounds' with
    | zero =>
      refine ⟨forward_loop greedy goes leaves.forward _,
        forward_loop greedy goes leaves.forward' _, ?_⟩
      intro u z c c' T T' g g' inside stands recalls known
      have seen' := enough_spent stands.whole known.2.2
      have seen := (recalls id u z stands.whole inside).trans seen'
      rw [← stands.offset] at seen
      rw [← stands.offset'] at seen'
      rw [loop_seen seen, loop_seen seen']
      exact .failed recalls
    | succ rounds' =>
      have again := turns _ _ _ (enough_lasting lasting id rounds rounds') (ih rounds')
      have away := leaves.weaken fun z T T'
        (known : P z T T' ∧ f.EnoughRounds id rounds rounds' z T T') => known.1
      apply alike_once (alike_prefer (enough_lasting lasting id rounds rounds') greedy again away)
      intro u z T T' whole inside known fresh fresh'
      refine ⟨?_, enough_entered whole known.2.1 fresh, enough_entered whole known.2.2 fresh'⟩
      exact lasting [] z T T' _ _ known.1 (fun _ old => List.mem_cons_of_mem _ old)
        (fun _ old => List.mem_cons_of_mem _ old)

def EdgeAgrees (f : Frame) (look : Look → Bool) : Prop :=
  ∀ l c c', look l = true → f.Stands [] f.text c c' → f.Inside f.text → l.holds c = l.holds c'

theorem look_agrees {look : Look → Bool} {l : Look} (edge : f.EdgeAgrees look)
    (allowed : look l = true) (inside : f.Inside z) (stands : f.Stands u z c c') :
    l.holds c = l.holds c' := by
  rcases List.eq_nil_or_concat u with rfl | ⟨v, x, rfl⟩
  · have whole : f.text = z := stands.whole
    subst whole
    exact edge l c c' allowed stands inside
  · apply Look.holds_congr
    · rw [stands.before, stands.before']
      simp
    · rw [stands.rest, stands.rest']
      rcases inside with more | ⟨right, right'⟩
      · cases z with
        | nil => exact absurd rfl more
        | cons y z => rfl
      · rw [right, right']

theorem alike_set (lasting : Lasting P) (set : CharSet) (next : f.Alike P s s') :
    f.Alike P ((Node.set set).run s) ((Node.set set).run s') := by
  have goes : ∀ {s}, Forward (fun _ => True) s →
      Forward (fun _ => True) ((Node.set set).run s) := fun forward =>
    Node.run_forward (fun _ => true) (fun _ => true) (by simp) (.set set) rfl forward
  refine ⟨goes next.forward, goes next.forward', ?_⟩
  intro u z c c' T T' g g' inside stands recalls known
  simp only [Node.run]
  rw [stands.rest, stands.rest']
  cases z with
  | nil =>
    obtain ⟨right, right'⟩ := inside.resolve_left (by simp)
    rw [right, right']
    exact .failed recalls
  | cons x z =>
    simp only [List.cons_append]
    split
    · have after := stands.advance
      by_cases more : f.Inside z
      · exact next.meets g g' more after recalls (lasting [x] z T T' _ _ known
          (fun _ old => old) (fun _ old => old))
      · -- the last character of the stretch was taken, and the surroundings differ from here on
        have opened : ¬ f.Closed := fun closed => more (.inr closed)
        have nothing : z = [] := Decidable.byContradiction fun held => more (.inl held)
        subst nothing
        have whole : f.text = u ++ [x] := by simpa using after.whole
        apply meets_beyond opened _ _ (next.forward _ g T) (next.forward' _ g' T') recalls
        · rw [after.offset, whole]
        · rw [after.offset', whole]
    · exact .failed recalls

theorem alike_run {look : Look → Bool} (edge : f.EdgeAgrees look) (n : Node)
    (only : n.each (fun _ => true) look = true) (lasting : Lasting P) (next : f.Alike P s s') :
    f.Alike P (n.run s) (n.run s') := by
  have goes : ∀ (n : Node), n.each (fun _ => true) look = true → ∀ next,
      Forward (fun _ => True) next → Forward (fun _ => True) (n.run next) :=
    fun n only next => Node.run_forward _ _ (by simp) n only
  induction n generalizing P s s' with
  | empty => exact next
  | set set => exact alike_set lasting set next
  | look l =>
    refine ⟨goes _ only _ next.forward, goes _ only _ next.forward', ?_⟩
    intro u z c c' T T' g g' inside stands recalls known
    simp only [Node.run]
    rw [look_agrees edge only inside stands]
    split
    · exact next.meets g g' inside stands recalls known
    · exact .failed recalls
  | group i n ih =>
    refine ⟨goes _ only _ next.forward, goes _ only _ next.forward', ?_⟩
    intro u z c c' T T' g g' inside stands recalls known
    have noted : f.Alike P (fun d later => s d ((i, ⟨c.offset, d.offset⟩) :: later))
        (fun d later => s' d ((i, ⟨c'.offset, d.offset⟩) :: later)) :=
      ⟨fun d later => next.forward d _, fun d later => next.forward' d _,
        fun later later' => next.meets _ _⟩
    exact (ih only lasting noted).meets g g' inside stands recalls known
  | seq a b first second =>
    obtain ⟨left, right⟩ := Bool.and_eq_true_iff.mp only
    exact first left lasting (second right lasting next)
  | alt id a b first second =>
    obtain ⟨left, right⟩ := Bool.and_eq_true_iff.mp only
    apply alike_once (alike_orElse lasting (first left lasting next) (second right lasting next))
    intro u z T T' whole inside known fresh fresh'
    exact lasting [] z T T' _ _ known (fun _ old => List.mem_cons_of_mem _ old)
      (fun _ old => List.mem_cons_of_mem _ old)
  | opt id greedy n ih =>
    apply alike_once (alike_prefer lasting greedy (ih only lasting next) next)
    intro u z T T' whole inside known fresh fresh'
    exact lasting [] z T T' _ _ known (fun _ old => List.mem_cons_of_mem _ old)
      (fun _ old => List.mem_cons_of_mem _ old)
  | star id greedy n ih =>
    -- the two rests differ in length, but either bound allows for more rounds than places are left
    refine ⟨goes _ only _ next.forward, goes _ only _ next.forward', ?_⟩
    intro u z c c' T T' g g' inside stands recalls known
    have loops := alike_loop id lasting greedy (goes n only)
      (fun Q s s' => ih only) next (c.rest.length + 1) (c'.rest.length + 1)
    apply loops.meets g g' inside stands recalls
    refine ⟨known, .inl ?_, .inl ?_⟩
    · simp [stands.rest]
    · simp [stands.rest']
  | plus id greedy n ih =>
    refine ⟨goes _ only _ next.forward, goes _ only _ next.forward', ?_⟩
    intro u z c c' T T' g g' inside stands recalls known
    have loops := alike_loop id lasting greedy (goes n only)
      (fun Q s s' => ih only) next (c.rest.length + 1) (c'.rest.length + 1)
    apply (ih only (enough_lasting lasting _ _ _) loops).meets g g' inside stands recalls
    refine ⟨known, .inl ?_, .inl ?_⟩
    · simp [stands.rest]
    · simp [stands.rest']

end Frame

end LiveHighlight.Pattern
