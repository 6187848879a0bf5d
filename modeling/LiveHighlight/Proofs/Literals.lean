import LiveHighlight.Proofs.Strides

-- Patterns without repetitions. A sequence of characters and conditions can go on in one way only
-- from any place, and of several sequences the first that goes on is taken.

namespace LiveHighlight

namespace Unicode

set_option maxRecDepth 4000 in
theorem foldRuns_apart : ∀ r ∈ foldRuns, 32 ≤ r.first ∧ 32 ≤ (r.first : Int) + r.shift := by
  decide +kernel

theorem FoldRun.first_le {r : FoldRun} {n : Nat} (holds : r.holds n = true) : r.first ≤ n := by
  simp only [FoldRun.holds, Bool.and_eq_true, decide_eq_true_eq] at holds
  exact holds.1.1

theorem mem_caseVariants_self (c : Char) : c ∈ caseVariants c := by
  refine List.mem_map.mpr ⟨c.toNat, ?_, Char.ofNat_toNat c⟩
  unfold foldCode
  split
  · rename_i r found
    have holds := List.find?_some found
    have apart := (foldRuns_apart r (List.mem_of_find?_eq_some found)).2
    have first := FoldRun.first_le holds
    have back : (((c.toNat + r.shift).toNat : Int) - r.shift).toNat = c.toNat := by omega
    refine List.mem_cons_of_mem _ (List.mem_filterMap.mpr ⟨r, List.mem_of_find?_eq_some found, ?_⟩)
    dsimp only
    rw [back, if_pos holds]
  · exact List.mem_cons_self

theorem toNat_ofNat {n : Nat} (held : 0 < (Char.ofNat n).toNat) : (Char.ofNat n).toNat = n := by
  by_cases valid : n.isValidChar
  · have same : Char.ofNat n = Char.ofNatAux n valid := dif_pos valid
    rw [same]
    rfl
  · have same : Char.ofNat n = '\x00' := dif_neg valid
    rw [same] at held
    exact absurd held (Nat.lt_irrefl 0)

theorem control_caseVariants {x y : Char} (held : 0 < x.toNat) (control : x.toNat < 32)
    (member : x ∈ caseVariants y) : y = x := by
  obtain ⟨n, source, rfl⟩ := List.mem_map.mp member
  rw [toNat_ofNat held] at control
  rcases List.mem_cons.mp source with rfl | unfolded
  · unfold foldCode at control ⊢
    split
    · rename_i r found
      rw [found] at control
      have apart := (foldRuns_apart r (List.mem_of_find?_eq_some found)).2
      have holds := List.find?_some found
      have first := FoldRun.first_le holds
      dsimp only at control
      omega
    · exact (Char.ofNat_toNat y).symm
  · obtain ⟨r, listed, found⟩ := List.mem_filterMap.mp unfolded
    dsimp only at found
    split at found
    · rename_i holds
      cases found
      have apart := (foldRuns_apart r listed).1
      have first := FoldRun.first_le holds
      omega
    · cases found

end Unicode

namespace Pattern

abbrev Way := Cursor → Option Cursor

namespace Way

def take (s : CharSet) : Way := fun c =>
  match c.rest with
  | [] => none
  | x :: rest => if s.contains x then some (c.advance x rest) else none

def check (l : Look) : Way := fun c => if l.holds c then some c else none

def along : List Way → Way
  | [] => some
  | f :: rest => fun c => (f c).bind (along rest)

variable {c d : Cursor} {ways more : List Way} {s : CharSet} {l : Look}

theorem take_exact : take s c = some d ↔
    ∃ x rest, s.contains x = true ∧ c.rest = x :: rest ∧ d = c.advance x rest := by
  unfold take
  split
  · rename_i last
    simp [last]
  · rename_i x rest head
    rw [head]
    constructor
    · intro taken
      split at taken
      · rename_i member
        cases taken
        exact ⟨x, rest, member, rfl, rfl⟩
      · cases taken
    · rintro ⟨y, others, member, same, rfl⟩
      cases same
      rw [if_pos member]

theorem check_exact : check l c = some d ↔ l.holds c = true ∧ d = c := by
  unfold check
  split
  · rename_i holds
    simp [holds, eq_comm]
  · rename_i fails
    simp [fails]

theorem along_append (c : Cursor) :
    along (ways ++ more) c = (along ways c).bind (along more) := by
  induction ways generalizing c with
  | nil => rfl
  | cons f rest ih =>
    simp only [List.cons_append, along]
    cases f c with
    | none => rfl
    | some d => exact ih d

theorem along_take_exact {sets : List CharSet} : along (sets.map take) c = some d ↔
    ∃ u, List.Forall₂ (fun s x => s.contains x = true) sets u ∧ c.rest = u ++ d.rest ∧
      d.before = u.reverse ++ c.before := by
  induction sets generalizing c with
  | nil =>
    constructor
    · rintro same
      cases same
      exact ⟨[], .nil, rfl, rfl⟩
    · rintro ⟨u, taken, rest, before⟩
      cases taken
      have place : c = d := Cursor.same_place before.symm rest
      rw [place]
      rfl
  | cons s sets ih =>
    constructor
    · intro led
      obtain ⟨e, first, others⟩ := Option.bind_eq_some_iff.mp led
      obtain ⟨x, rest, member, head, rfl⟩ := take_exact.mp first
      obtain ⟨u, taken, behind, before⟩ := ih.mp others
      refine ⟨x :: u, .cons member taken, ?_, ?_⟩
      · rw [head, List.cons_append, ← behind]
        rfl
      · simp [before, Cursor.advance]
    · rintro ⟨u, taken, rest, before⟩
      cases taken with
      | cons member others =>
        rename_i x u
        refine Option.bind_eq_some_iff.mpr
          ⟨c.advance x (u ++ d.rest), ?_, ih.mpr ⟨u, others, rfl, ?_⟩⟩
        · exact take_exact.mpr ⟨x, _, member, rest, rfl⟩
        · simp [before, Cursor.advance]

end Way

-- An expression that never branches: it goes its way, remembers nothing and tries nothing twice.
def Expr.Goes (e : Expr) (way : Way) : Prop :=
  ∀ id, (Node.ofExpr e id).2 = id ∧ ∀ next c g tried, (Node.ofExpr e id).1.run next c g tried =
    match way c with
    | none => (none, tried)
    | some d => next d g tried

namespace Expr

variable {a b : Expr} {f h : Way} {es : List Expr} {ways : List Way} {c : Cursor}

theorem goes_empty : Goes .empty some := fun _ => ⟨rfl, fun _ _ _ _ => rfl⟩

theorem goes_set (s : CharSet) : Goes (.set s) (.take s) := by
  refine fun id => ⟨rfl, fun next c g tried => ?_⟩
  simp only [Node.ofExpr, Node.run, Way.take]
  cases c.rest with
  | nil => rfl
  | cons x rest =>
    dsimp only
    cases s.contains x <;> rfl

theorem goes_look (l : Look) : Goes (.look l) (.check l) := by
  refine fun id => ⟨rfl, fun next c g tried => ?_⟩
  simp only [Node.ofExpr, Node.run, Way.check]
  cases l.holds c <;> rfl

theorem goes_seq (first : a.Goes f) (second : b.Goes h) :
    Goes (.seq a b) fun c => (f c).bind h := by
  intro id
  have still : (Node.ofExpr a id).2 = id := (first id).1
  refine ⟨?_, fun next c g tried => ?_⟩
  · simp only [Node.ofExpr, still]
    exact (second id).1
  · simp only [Node.ofExpr, Node.run, still]
    rw [(first id).2]
    cases f c with
    | none => rfl
    | some d => exact (second id).2 next d g tried

theorem goes_seqAll (all : List.Forall₂ Goes es ways) : Goes (seqAll es) (.along ways) := by
  induction all with
  | nil => exact goes_empty
  | cons first others ih =>
    rename_i e way es ways
    cases others with
    | nil =>
      have only : Way.along [way] = way := by
        funext c
        exact Option.bind_fun_some (way c)
      rw [only]
      exact first
    | cons => exact goes_seq first ih

end Expr

variable {e : Expr} {way : Way} {names : List (String × Nat)} {c : Cursor} {m : Match}

theorem goes_matchAt? (goes : e.Goes way) (c : Cursor) :
    (ofExpr e names).matchAt? c = (way c).map fun d => ⟨c, d, []⟩ := by
  simp only [matchAt?, ofExpr, (goes 0).2]
  cases way c <;> rfl

-- Each branch is numbered behind those before it and is tried at this place for the first time.
theorem altAll_run {es : List Expr} {ways : List Way} (all : List.Forall₂ Expr.Goes es ways)
    (id : Nat) (c : Cursor) (g : Groups) (tried : Tried)
    (fresh : ∀ t ∈ tried, t.2 = c.offset → t.1 < id) :
    ((Node.ofExpr (.altAll es) id).1.run Step.finish c g tried).1 =
      (ways.findSome? fun way => way c).map fun d => (d, g) := by
  induction all generalizing id tried with
  | nil =>
    simp only [Expr.altAll, Node.ofExpr, Node.run, List.findSome?_nil, Option.map_none]
    split
    · rfl
    · rfl
  | cons own others ih =>
    rename_i e way es ways
    cases others with
    | nil =>
      rw [Expr.altAll, (own id).2]
      cases here : way c <;> simp [here, Step.finish]
    | cons first rest =>
      have new : tried.contains (id, c.offset) = false := by
        rw [Bool.eq_false_iff]
        intro old
        exact Nat.lt_irrefl _ (fresh _ (List.contains_iff_mem.mp old) rfl)
      have later := ih (id + 1) ((id, c.offset) :: tried) (by
        intro t member same
        rcases List.mem_cons.mp member with rfl | old
        · exact Nat.lt_succ_self _
        · exact Nat.lt_succ_of_lt (fresh t old same))
      have branch : (Node.ofExpr e (id + 1)).2 = id + 1 := (own (id + 1)).1
      simp only [Expr.altAll, Node.ofExpr, Node.run, Step.once, new, branch, Step.orElse,
        Bool.false_eq_true, if_false, (own (id + 1)).2]
      rw [List.findSome?_cons]
      cases way c with
      | none => exact later
      | some d => rfl

theorem altAll_matchAt? {es : List Expr} {ways : List Way} (all : List.Forall₂ Expr.Goes es ways)
    (c : Cursor) : (ofExpr (.altAll es) names).matchAt? c =
      (ways.findSome? fun way => way c).map fun d => ⟨c, d, []⟩ := by
  simp only [matchAt?, ofExpr, altAll_run all 0 c [] [] (by simp), Option.map_map]
  rfl

def charSet (ignoreCase : Bool) (c : Char) : CharSet :=
  if ignoreCase then .caseless (.single c) else .single c

theorem single_contains {x y : Char} : (CharSet.single y).contains x = true ↔ x = y := by
  simp only [CharSet.single, CharSet.contains, Bool.and_eq_true, decide_eq_true_eq]
  constructor
  · rintro ⟨low, high⟩
    exact Char.toNat_inj.mp (Nat.le_antisymm high low)
  · rintro rfl
    exact ⟨Nat.le_refl _, Nat.le_refl _⟩

theorem charSet_contains {ignoreCase : Bool} {x y : Char} :
    (charSet ignoreCase x).contains y = true ↔
      if ignoreCase then x ∈ Unicode.caseVariants y else y = x := by
  cases ignoreCase with
  | false => exact single_contains
  | true =>
    simp only [charSet, if_true, CharSet.contains, List.any_eq_true, single_contains]
    exact ⟨fun ⟨z, member, same⟩ => same ▸ member, fun member => ⟨x, member, rfl⟩⟩

theorem charSet_self (ignoreCase : Bool) (x : Char) :
    (charSet ignoreCase x).contains x = true := by
  rw [charSet_contains]
  split
  · exact Unicode.mem_caseVariants_self x
  · rfl

theorem charSet_terminator {ignoreCase : Bool} {x y : Char} (ends : Text.isTerminator x = true)
    (member : (charSet ignoreCase x).contains y = true) : y = x := by
  have control : 0 < x.toNat ∧ x.toNat < 32 := by
    simp only [Text.isTerminator, Bool.or_eq_true, beq_iff_eq] at ends
    rcases ends with rfl | rfl
    · decide
    · decide
  rw [charSet_contains] at member
  split at member
  · exact Unicode.control_caseVariants control.1 control.2 member
  · exact member

theorem singles_same {w u : Text} :
    List.Forall₂ (fun s x => s.contains x = true) (w.map (charSet false)) u ↔ u = w := by
  rw [List.forall₂_map_left_iff]
  constructor
  · intro all
    have same : List.Forall₂ (· = ·) w u := all.imp fun y x held => (single_contains.mp held).symm
    rw [List.forall₂_eq_eq_eq] at same
    exact same.symm
  · rintro rfl
    exact List.forall₂_same.mpr fun x _ => single_contains.mpr rfl

theorem literal_goes (ignoreCase : Bool) (t : Text) :
    (Expr.literal ignoreCase t).Goes (.along ((t.map (charSet ignoreCase)).map .take)) := by
  apply Expr.goes_seqAll
  rw [List.map_map, List.forall₂_map_left_iff, List.forall₂_map_right_iff]
  exact List.forall₂_same.mpr fun x _ => Expr.goes_set _

theorem literal_exact {ignoreCase : Bool} {t : Text} :
    (ofExpr (.literal ignoreCase t) names).matchAt? c = some m ↔
      m.start = c ∧ m.groups = [] ∧
        ∃ u, List.Forall₂ (fun x y => (charSet ignoreCase x).contains y = true) t u ∧
          c.rest = u ++ m.stop.rest ∧ m.stop.before = u.reverse ++ c.before := by
  rw [goes_matchAt? (literal_goes ignoreCase t), Option.map_eq_some_iff]
  simp only [Way.along_take_exact, List.forall₂_map_left_iff]
  constructor
  · rintro ⟨d, led, rfl⟩
    exact ⟨rfl, rfl, led⟩
  · rintro ⟨rfl, none_found, led⟩
    refine ⟨m.stop, led, ?_⟩
    rw [← none_found]

theorem literal_moves {ignoreCase : Bool} {t : Text} (held : t ≠ [])
    (found : (ofExpr (.literal ignoreCase t) names).matchAt? c = some m) : m.isEmpty = false := by
  obtain ⟨rfl, -, u, taken, rest, before⟩ := literal_exact.mp found
  have more : u ≠ [] := by
    rintro rfl
    have lengths := taken.length_eq
    simp [held] at lengths
  have positive : Text.size u ≠ 0 := fun nothing => more (Text.size_eq_zero.mp nothing)
  rw [Match.isEmpty, m.start.offset_eq, m.stop.offset_eq, before, Text.size_append,
    Text.size_reverse, beq_eq_false_iff_ne]
  omega

end Pattern

end LiveHighlight
