import LiveHighlight.Proofs.Literals
import LiveHighlight.Proofs.Rescan

-- Words that stand for themselves. A longer one is tried before its beginnings, so between blanks
-- only a whole word is found, if both its ends are word characters where a boundary is asked for.

namespace LiveHighlight

namespace Unicode

theorem blank_intervals_noWord : ∀ i ∈ blankIntervals, ∀ n ∈ List.range' i.1 (i.2 + 1 - i.1),
    isWord (Char.ofNat n) = false := by
  decide +kernel

theorem blank_noWord {x : Char} (blank : isBlank x = true) : isWord x = false := by
  obtain ⟨i, listed, inside⟩ := List.any_eq_true.mp blank
  simp only [Bool.and_eq_true, decide_eq_true_eq] at inside
  have other := blank_intervals_noWord i listed x.toNat (List.mem_range'_1.mpr (by omega))
  rwa [Char.ofNat_toNat] at other

end Unicode

namespace Cursor

variable {c d e : Cursor} {ok : Char → Prop}

theorem Leads.between (first : Leads ok c d) (second : Leads ok c e)
    (ordered : d.offset ≤ e.offset) : Leads ok d e := by
  obtain ⟨u, -, rest, before⟩ := first
  obtain ⟨v, taken, behind, front⟩ := second
  rw [d.offset_eq, e.offset_eq, before, front] at ordered
  simp only [Text.size_append, Text.size_reverse] at ordered
  obtain ⟨w, rfl, onward⟩ := Text.halves_of_le (rest.symm.trans behind) (by omega)
  refine ⟨w, fun x member => taken x (by simp [member]), onward, ?_⟩
  rw [front, before, List.reverse_append, List.append_assoc]

theorem Leads.next (leads : Leads ok c e) (ahead : c.offset < e.offset) (more : c.next? = some d) :
    Leads ok d e := by
  obtain ⟨u, taken, rest, before⟩ := leads
  cases u with
  | nil =>
    rw [c.offset_eq, e.offset_eq, before] at ahead
    exact absurd ahead (Nat.lt_irrefl _)
  | cons x u =>
    cases (Scan.next?_rest rest).symm.trans more
    exact ⟨u, fun y member => taken y (by simp [member]), rfl, by simp [before, advance]⟩

end Cursor

namespace Scan

variable {walk : Cursor → Move Span} {spans : List Span} {c e : Cursor}

-- A scan comes to every place that none of its jumps goes over.
theorem reaches (strict : Strict walk) (scan : Scan walk c spans)
    (leads : c.Leads (fun _ => True) e)
    (kept : ∀ d d' l, d.Leads (fun _ => True) e → walk d = .jump d' l → d.offset < e.offset →
      d'.offset ≤ e.offset) :
    ∃ front back, spans = front ++ back ∧ (∀ s ∈ front, s.start < e.offset) ∧
      Scan walk e back := by
  induction scan with
  | stay nothing last =>
    rename_i c
    have place : c = e := by
      refine leads.same_of_length ?_
      have shorter := leads.length_le
      rw [last] at shorter ⊢
      exact Nat.le_zero.mp shorter
    subst place
    exact ⟨[], [], rfl, by simp, .stay nothing last⟩
  | skip nothing more rest ih =>
    rename_i c d l
    rcases Nat.eq_or_lt_of_le leads.offset with here | ahead
    · cases leads.same_of_offset here
      exact ⟨[], l, rfl, by simp, .skip nothing more rest⟩
    · obtain ⟨front, back, rfl, before, there⟩ := ih (leads.next ahead more)
      exact ⟨front, back, rfl, before, there⟩
  | jump found rest ih =>
    rename_i c d l k
    rcases Nat.eq_or_lt_of_le leads.offset with here | ahead
    · cases leads.same_of_offset here
      exact ⟨[], l ++ k, rfl, by simp, .jump found rest⟩
    · obtain ⟨onward, -, finds⟩ := strict _ _ _ found
      have near := kept _ _ _ leads found ahead
      obtain ⟨front, back, rfl, before, there⟩ := ih (onward.between leads near)
      refine ⟨l ++ front, back, by simp, ?_, there⟩
      intro s member
      rcases List.mem_append.mp member with own | later
      · rcases finds with rfl | rfl
        · cases own
        · cases List.mem_singleton.mp own
          exact ahead
      · exact before s later

end Scan

theorem Pattern.stride_jump {p : Pattern} {c d : Cursor} {k : List Span} :
    p.stride c = .jump d k ↔
      ∃ m, p.matchAt? c = some m ∧ m.isEmpty = false ∧ d = m.stop ∧ k = [m.span] := by
  unfold stride
  constructor
  · intro jumps
    split at jumps
    · rename_i m found
      split at jumps
      · cases jumps
      · rename_i moved
        cases jumps
        exact ⟨m, found, Bool.eq_false_iff.mpr moved, rfl, rfl⟩
    · cases jumps
  · rintro ⟨m, found, moved, rfl, rfl⟩
    simp [found, moved]

theorem Cursor.next?_later {c d : Cursor} (more : c.next? = some d) : c.offset < d.offset := by
  cases ahead : c.rest with
  | nil => simp [Scan.next?_last ahead] at more
  | cons x rest =>
    cases (Scan.next?_rest ahead).symm.trans more
    exact Nat.lt_add_of_pos_left x.utf8Size_pos

theorem Pattern.scan_here {p : Pattern} {c : Cursor} {spans : List Span} {n : Nat}
    (scan : Scan p.stride c spans) :
    ⟨c.offset, n⟩ ∈ spans ↔
      ∃ m, p.matchAt? c = some m ∧ m.isEmpty = false ∧ m.stop.offset = n := by
  constructor
  · intro member
    cases scan with
    | stay => cases member
    | skip nothing more rest =>
      have inside := (rest.within p.stride_strict _ member).1
      have later := Cursor.next?_later more
      exact absurd inside (Nat.not_le.mpr later)
    | jump found rest =>
      have moved := (p.stride_strict _ _ _ found).2.1
      obtain ⟨m, here, held, rfl, rfl⟩ := stride_jump.mp found
      rcases List.mem_append.mp member with own | behind
      · exact ⟨m, here, held, (congrArg Span.stop (List.mem_singleton.mp own)).symm⟩
      · have inside := (rest.within p.stride_strict _ behind).1
        exact absurd inside (Nat.not_le.mpr moved)
  · rintro ⟨m, here, held, rfl⟩
    obtain ⟨rest, rfl, -⟩ := scan.jumped (stride_jump.mpr ⟨m, here, held, rfl, rfl⟩)
    refine List.mem_append_left _ (List.mem_singleton.mpr ?_)
    rw [Match.span, matchAt?_start here]

namespace Rules.Finder

variable {a b v w right : Text} {l words : List Text} {c d : Cursor} {m : Pattern.Match}

theorem textLe_total (a b : Text) : (textLe a b || textLe b a) = true := by
  induction a generalizing b with
  | nil => rfl
  | cons x a ih =>
    cases b with
    | nil => rfl
    | cons y b =>
      simp only [textLe, Bool.or_eq_true, Bool.and_eq_true, decide_eq_true_eq, beq_iff_eq]
      by_cases less : x < y
      · exact .inl (.inl less)
      · by_cases more : y < x
        · exact .inr (.inl more)
        · have same : x = y := Char.le_antisymm (Char.not_lt.mp more) (Char.not_lt.mp less)
          have either : textLe a b = true ∨ textLe b a = true := by simpa using ih b
          exact either.imp (fun first => .inr ⟨same, first⟩) fun second => .inr ⟨same.symm, second⟩

theorem textLe_trans {c : Text} (first : textLe a b = true) (second : textLe b c = true) :
    textLe a c = true := by
  induction a generalizing b c with
  | nil => rfl
  | cons x a ih =>
    cases b with
    | nil => cases first
    | cons y b =>
      cases c with
      | nil => cases second
      | cons z c =>
        simp only [textLe, Bool.or_eq_true, Bool.and_eq_true, decide_eq_true_eq, beq_iff_eq]
          at first second ⊢
        rcases first with less | ⟨rfl, within⟩
        · rcases second with further | ⟨rfl, -⟩
          · exact .inl (Char.lt_trans less further)
          · exact .inl less
        · rcases second with further | ⟨rfl, onward⟩
          · exact .inl further
          · exact .inr ⟨rfl, ih within onward⟩

theorem longerFirst_exact : longerFirst a b = true ↔
    Text.size b < Text.size a ∨ (Text.size a = Text.size b ∧ textLe a b = true) := by
  simp [longerFirst]

theorem longerFirst_total (a b : Text) : (longerFirst a b || longerFirst b a) = true := by
  rw [Bool.or_eq_true, longerFirst_exact, longerFirst_exact]
  have either : textLe a b = true ∨ textLe b a = true := by simpa using textLe_total a b
  rcases Nat.lt_trichotomy (Text.size a) (Text.size b) with less | same | more
  · exact .inr (.inl less)
  · exact either.imp (fun first => .inr ⟨same, first⟩) fun second => .inr ⟨same.symm, second⟩
  · exact .inl (.inl more)

theorem longerFirst_trans (a b c : Text) (first : longerFirst a b = true)
    (second : longerFirst b c = true) : longerFirst a c = true := by
  rw [longerFirst_exact] at first second ⊢
  rcases first with more | ⟨same, within⟩
  · exact .inl (by omega)
  · rcases second with more | ⟨again, onward⟩
    · exact .inl (by omega)
    · exact .inr ⟨by omega, textLe_trans within onward⟩

theorem dropRepeats_sublist (l : List Text) : (dropRepeats l).Sublist l := by
  induction l with
  | nil => exact .slnil
  | cons w rest ih =>
    unfold dropRepeats
    split
    · exact (List.nil_sublist rest).cons_cons w
    · rename_i v more same
      rw [same] at ih
      split
      · exact ih.cons w
      · exact ih.cons_cons w

theorem mem_dropRepeats : w ∈ dropRepeats l ↔ w ∈ l := by
  refine ⟨fun member => (dropRepeats_sublist l).subset member, fun member => ?_⟩
  induction l with
  | nil => cases member
  | cons v rest ih =>
    have later : w ∈ rest → w ∈ dropRepeats (v :: rest) := by
      intro listed
      have kept := ih listed
      unfold dropRepeats
      split
      · rename_i nothing
        rw [nothing] at kept
        cases kept
      · rename_i u more same
        rw [same] at kept
        split
        · exact kept
        · exact List.mem_cons_of_mem _ kept
    rcases List.mem_cons.mp member with rfl | listed
    · unfold dropRepeats
      split
      · exact List.mem_singleton.mpr rfl
      · split
        · rename_i same
          exact List.mem_cons.mpr (.inl same)
        · exact List.mem_cons_self
    · exact later listed

theorem mem_arrangeWords : v ∈ arrangeWords words ↔
    v ≠ [] ∧ ∃ w ∈ words, Unicode.trim w = v := by
  rw [arrangeWords, mem_dropRepeats, (Order.sort_perm _).mem_iff, List.mem_filter, List.mem_map]
  simp [and_comm]

theorem arrangeWords_longest (words : List Text) :
    (arrangeWords words).Pairwise fun a b => Text.size b ≤ Text.size a := by
  have sorted := Order.sort_sorted longerFirst_total longerFirst_trans
    ((words.map Unicode.trim).filter fun w => !w.isEmpty)
  refine (sorted.sublist (dropRepeats_sublist _)).imp fun before => ?_
  rw [longerFirst_exact] at before
  omega

open Pattern (Way Look)

-- The way a word goes: its characters, with a check where it has a boundary.

def boundaryWays (x : Option Char) : List Way :=
  if x.any isWordChar then [.check (.word .boundary)] else []

def wordWay (ignoreCase : Bool) (w : Text) : Way :=
  .along (boundaryWays w.head? ++ (w.map (Pattern.charSet ignoreCase)).map .take ++
    boundaryWays w.getLast?)

theorem boundary_goes (x : Option Char) :
    List.Forall₂ Pattern.Expr.Goes (boundaryAt x) (boundaryWays x) := by
  unfold boundaryAt boundaryWays
  split
  · exact .cons (Pattern.Expr.goes_look _) .nil
  · exact .nil

theorem wordExpr_goes (ignoreCase : Bool) (w : Text) :
    (wordExpr ignoreCase w).Goes (wordWay ignoreCase w) := by
  apply Pattern.Expr.goes_seqAll
  refine List.rel_append (List.rel_append (boundary_goes _) ?_) (boundary_goes _)
  rw [List.map_map, List.forall₂_map_left_iff, List.forall₂_map_right_iff]
  exact List.forall₂_same.mpr fun x _ => Pattern.Expr.goes_set _

theorem boundaryWays_exact {x : Option Char} :
    Way.along (boundaryWays x) c = some d ↔
      (x.any isWordChar = true → (Look.word .boundary).holds c = true) ∧ d = c := by
  unfold boundaryWays
  split
  · rename_i asked
    change (Way.check (.word .boundary) c).bind some = some d ↔ _
    rw [Option.bind_fun_some, Way.check_exact]
    simp [asked]
  · rename_i unasked
    constructor
    · intro same
      exact ⟨fun asked => absurd asked unasked, (Option.some.inj same).symm⟩
    · rintro ⟨-, rfl⟩
      rfl

theorem wordWay_exact : wordWay false w c = some d ↔
    c.rest = w ++ d.rest ∧ d.before = w.reverse ++ c.before ∧
      (w.head?.any isWordChar = true → (Look.word .boundary).holds c = true) ∧
      (w.getLast?.any isWordChar = true → (Look.word .boundary).holds d = true) := by
  simp only [wordWay, Way.along_append, Option.bind_eq_some_iff, boundaryWays_exact,
    Way.along_take_exact, Pattern.singles_same]
  constructor
  · rintro ⟨e, ⟨e', ⟨front, rfl⟩, u, rfl, rest, before⟩, back, rfl⟩
    exact ⟨rest, before, front, back⟩
  · rintro ⟨rest, before, front, back⟩
    exact ⟨d, ⟨c, ⟨front, rfl⟩, w, rfl, rest, before⟩, back, rfl⟩

-- Where a boundary is asked for at an end of a word, the character there is a word character.
def endsFit (w : Text) : Bool :=
  [w.head?, w.getLast?].all fun x => !x.any isWordChar || Pattern.isWordAt x

def BlankAt (x : Option Char) : Prop := ∀ y, x = some y → Unicode.isBlank y = true

theorem blank_noWordAt {x : Option Char} (blank : BlankAt x) : Pattern.isWordAt x = false := by
  cases x with
  | none => rfl
  | some y => exact Unicode.blank_noWord (blank y rfl)

theorem boundary_front (blank : BlankAt c.before.head?) :
    (Look.word .boundary).holds c = Pattern.isWordAt c.rest.head? := by
  simp only [Look.boundary_holds, blank_noWordAt blank, Bool.false_bne]

theorem boundary_back (blank : BlankAt c.rest.head?) :
    (Look.word .boundary).holds c = Pattern.isWordAt c.before.head? := by
  simp only [Look.boundary_holds, blank_noWordAt blank, Bool.bne_false]

theorem wordWay_apart (held : v ≠ []) (rest : c.rest = v ++ right)
    (front : BlankAt c.before.head?) (back : BlankAt right.head?) :
    wordWay false v c = some d ↔ endsFit v = true ∧ d = c.past v right := by
  have first : c.rest.head? = v.head? := by rw [rest, List.head?_append_of_ne_nil _ held]
  have last : (c.past v right).before.head? = v.getLast? := by
    rw [Cursor.past, List.head?_append_of_ne_nil _ (by simpa using held), List.head?_reverse]
  have fits : endsFit v = true ↔
      (v.head?.any isWordChar = true → (Look.word .boundary).holds c = true) ∧
      (v.getLast?.any isWordChar = true → (Look.word .boundary).holds (c.past v right) = true) := by
    have behind : BlankAt (c.past v right).rest.head? := back
    rw [boundary_front front, boundary_back behind, first, last]
    simp only [endsFit, List.all_cons, List.all_nil, Bool.and_true, Bool.and_eq_true,
      Bool.or_eq_true, Bool.not_eq_true', ← Bool.not_eq_true, imp_iff_not_or]
  rw [wordWay_exact, fits]
  constructor
  · rintro ⟨rest', before', front', back'⟩
    have place : d = c.past v right :=
      Cursor.same_place before' (List.append_cancel_left (rest'.symm.trans rest))
    rw [place] at back'
    exact ⟨⟨front', back'⟩, place⟩
  · rintro ⟨⟨front', back'⟩, rfl⟩
    exact ⟨rest, rfl, front', back'⟩

def wordsPattern (l : List Text) : Pattern := .ofExpr (.altAll (l.map (wordExpr false))) []

theorem words_matchAt? (l : List Text) (c : Cursor) : (wordsPattern l).matchAt? c =
    (l.findSome? fun w => wordWay false w c).map fun d => ⟨c, d, []⟩ := by
  have all : List.Forall₂ Pattern.Expr.Goes (l.map (wordExpr false)) (l.map (wordWay false)) := by
    rw [List.forall₂_map_left_iff, List.forall₂_map_right_iff]
    exact List.forall₂_same.mpr fun w _ => wordExpr_goes false w
  rw [wordsPattern, Pattern.altAll_matchAt? all, List.findSome?_map]
  rfl

structure Arranged (l : List Text) : Prop where
  held : ∀ w ∈ l, w ≠ []
  solid : ∀ w ∈ l, ∀ x ∈ w, Unicode.isBlank x = false
  longest : l.Pairwise fun a b => Text.size b ≤ Text.size a

theorem size_le_apart {z : Text} (parts : w ++ z = v ++ right)
    (solid : ∀ x ∈ w, Unicode.isBlank x = false) (back : BlankAt right.head?) :
    Text.size w ≤ Text.size v := by
  refine Nat.le_of_not_lt fun longer => ?_
  obtain ⟨more, held, rfl, rfl⟩ := Text.halves_of_lt parts.symm longer
  obtain ⟨x, more, rfl⟩ := List.exists_cons_of_ne_nil held
  have blank := back x rfl
  rw [solid x (by simp)] at blank
  cases blank

theorem words_taken (found : (wordsPattern l).matchAt? c = some m) :
    ∃ w ∈ l, wordWay false w c = some m.stop := by
  rw [words_matchAt?, Option.map_eq_some_iff] at found
  obtain ⟨d, taken, rfl⟩ := found
  exact List.exists_of_findSome?_eq_some taken

-- Longer words do not fit in between blanks, and shorter ones come later.
theorem words_apart (arranged : Arranged l) (listed : v ∈ l) (rest : c.rest = v ++ right)
    (front : BlankAt c.before.head?) (back : BlankAt right.head?) :
    (∃ m, (wordsPattern l).matchAt? c = some m ∧ m.stop = c.past v right) ↔ endsFit v = true := by
  have own {d : Cursor} := wordWay_apart (d := d) (arranged.held v listed) rest front back
  constructor
  · rintro ⟨m, found, stop⟩
    obtain ⟨w, -, taken⟩ := words_taken found
    have parts := (wordWay_exact.mp taken).1
    rw [stop, rest] at parts
    cases List.append_cancel_right parts
    exact (own.mp taken).1
  · intro fit
    have taken := own.mpr ⟨fit, rfl⟩
    cases first : l.findSome? fun w => wordWay false w c with
    | none =>
      rw [List.findSome?_eq_none_iff.mp first v listed] at taken
      cases taken
    | some d =>
      refine ⟨⟨c, d, []⟩, by rw [words_matchAt?, first]; rfl, ?_⟩
      obtain ⟨longer, w, shorter, parts, here, missed⟩ := List.findSome?_eq_some_iff.mp first
      have placed : w ∈ l := by simp [parts]
      have same := (wordWay_exact.mp here).1
      rw [rest] at same
      have within := size_le_apart same.symm (arranged.solid w placed) back
      have order : v = w ∨ v ∈ shorter := by
        rw [parts] at listed
        rcases List.mem_append.mp listed with before | later
        · rw [missed v before] at taken
          cases taken
        · exact List.mem_cons.mp later
      have reach : Text.size v ≤ Text.size w := by
        rcases order with rfl | later
        · exact Nat.le_refl _
        · have sorted := arranged.longest
          rw [parts] at sorted
          exact (List.pairwise_cons.mp (List.pairwise_append.mp sorted).2.1).1 v later
      cases (Text.halves_of_eq same (by omega)).1
      exact (own.mp here).2

theorem words_stop (taken : wordWay false w c = some d) :
    d.offset = c.offset + Text.size w ∧ d = c.past w d.rest := by
  obtain ⟨-, before, -, -⟩ := wordWay_exact.mp taken
  refine ⟨?_, Cursor.same_place before rfl⟩
  rw [d.offset_eq, c.offset_eq, before, Text.size_append, Text.size_reverse, Nat.add_comm]

theorem words_kept {e : Cursor} {k : List Span} (arranged : Arranged l)
    (blank : BlankAt e.before.head?) (leads : c.Leads (fun _ => True) e)
    (jumps : (wordsPattern l).stride c = .jump d k) (ahead : c.offset < e.offset) :
    d.offset ≤ e.offset := by
  obtain ⟨m, found, -, rfl, -⟩ := Pattern.stride_jump.mp jumps
  obtain ⟨w, listed, taken⟩ := words_taken found
  have stop := (words_stop taken).1
  obtain ⟨u, -, rest, before⟩ := leads
  have place : e.offset = Text.size u + c.offset := by
    rw [e.offset_eq, c.offset_eq, before, Text.size_append, Text.size_reverse]
  refine Nat.le_of_not_lt fun beyond => ?_
  obtain ⟨more, -, rfl, -⟩ :=
    Text.halves_of_lt (rest.symm.trans (wordWay_exact.mp taken).1) (by omega)
  have held : u ≠ [] := by
    rintro rfl
    rw [place, Text.size_nil] at ahead
    omega
  obtain ⟨u, x, rfl⟩ := (List.eq_nil_or_concat' u).resolve_left held
  have last := blank x (by rw [before]; simp)
  rw [arranged.solid _ listed x (by simp)] at last
  cases last

theorem words_found {t left : Text} (arranged : Arranged l) (listed : v ∈ l)
    (whole : t = left ++ (v ++ right)) (front : BlankAt left.getLast?)
    (back : BlankAt right.head?) :
    (⟨Text.size left, Text.size left + Text.size v⟩ : Span) ∈
      Pattern.strides ((wordsPattern l).allMatches t) ↔ endsFit v = true := by
  have place : BlankAt (Cursor.between left (v ++ right)).before.head? := by
    rw [Cursor.between, List.head?_reverse]
    exact front
  have leads : (Cursor.start t).Leads (fun _ => True) (.between left (v ++ right)) :=
    ⟨left, by simp, whole, (List.append_nil _).symm⟩
  obtain ⟨sooner, later, parts, before, scan⟩ :=
    Scan.reaches (Pattern.stride_strict _) (Pattern.allMatches_scan t) leads
      fun c d k leads jumps => words_kept arranged place leads jumps
  have here : (⟨Text.size left, Text.size left + Text.size v⟩ : Span) ∈ sooner ++ later ↔
      ⟨Text.size left, Text.size left + Text.size v⟩ ∈ later := by
    rw [List.mem_append, or_iff_right]
    exact fun found => Nat.lt_irrefl _ (before _ found)
  rw [parts, here, ← words_apart arranged listed (c := .between left (v ++ right)) rfl place back]
  refine (Pattern.scan_here scan).trans ⟨?_, ?_⟩
  · rintro ⟨m, found, -, stop⟩
    obtain ⟨w, -, taken⟩ := words_taken found
    obtain ⟨reach, past⟩ := words_stop taken
    have same : v ++ right = w ++ m.stop.rest := (wordWay_exact.mp taken).1
    have start : (Cursor.between left (v ++ right)).offset = Text.size left := rfl
    obtain ⟨rfl, rest⟩ := Text.halves_of_eq same (by omega)
    exact ⟨m, found, by rw [past, ← rest]⟩
  · rintro ⟨m, found, stop⟩
    have longer := Text.size_pos (arranged.held v listed)
    have start := Pattern.matchAt?_start found
    have reach : m.stop.offset = Text.size v + Text.size left := by rw [stop]; rfl
    refine ⟨m, found, ?_, by rw [reach, Nat.add_comm]⟩
    rw [Pattern.Match.isEmpty, start, reach, beq_eq_false_iff_ne]
    change Text.size left ≠ _
    omega

theorem ofWords?_held (held : arrangeWords words ≠ []) :
    ofWords? words false = some (.pattern (wordsPattern (arrangeWords words)) false) := by
  unfold ofWords?
  split
  · rename_i nothing
    exact absurd nothing held
  · rfl

theorem arranged (solid : ∀ w ∈ words, ∀ x ∈ Unicode.trim w, Unicode.isBlank x = false) :
    Arranged (arrangeWords words) where
  held _ listed := (mem_arrangeWords.mp listed).1
  solid v listed := by
    obtain ⟨-, w, member, rfl⟩ := mem_arrangeWords.mp listed
    exact solid w member
  longest := arrangeWords_longest words

end Rules.Finder

namespace Rules.RuleSet

open Finder (BlankAt endsFit)

variable {d : Definition} {k : Category} {rules : List HighlightRule} {s : Sorted}

-- Words of one category, which stand for themselves as they are written, and nothing else.
structure WordsOnly (d : Definition) (k : Category) (rules : List HighlightRule) : Prop where
  listed : ∃ front name back, d.highlights = front ++ (name, rules) :: back ∧
    Category.ofName? name = some k ∧
    ∀ e ∈ front ++ back, e.2 = [] ∧ (Category.ofName? e.1).isSome = true
  plain : ∀ r ∈ rules, r.isWord = true ∧ r.ignoreCase = false
  bare : d.outlines = [] ∧ d.inlines = [] ∧ d.blocks = []

theorem word_alone {r : HighlightRule} (word : r.isWord = true) : Delimiter.ofRule? r = none := by
  have ends : r.end? = none := by
    simp only [HighlightRule.isWord, Bool.and_eq_true, Option.isNone_iff_eq_none] at word
    simp [HighlightRule.end?, word.2]
  unfold Delimiter.ofRule?
  rw [ends]
  split <;> rfl

theorem sortRules_words (plain : ∀ r ∈ rules, r.isWord = true ∧ r.ignoreCase = false) :
    sortRules k s rules = .ok { s with words := s.words ++ rules.map (·.beginString) } := by
  induction rules generalizing s with
  | nil => simp [sortRules]
  | cons r rest ih =>
    obtain ⟨word, cased⟩ := plain r (by simp)
    have alone := word_alone word
    have here : sortRule k s r = .ok { s with words := s.words ++ [r.beginString] } := by
      simp [sortRule, alone, word, cased]
    rw [sortRules, here]
    simp only
    rw [ih fun r member => plain r (by simp [member])]
    simp

theorem sortCategories_bare {l : Delimiters} {finders : List (Category × Finder)}
    {front back : List (String × List HighlightRule)}
    (bare : ∀ e ∈ front, e.2 = [] ∧ (Category.ofName? e.1).isSome = true) :
    sortCategories l finders (front ++ back) = sortCategories l finders back := by
  induction front with
  | nil => rfl
  | cons e rest ih =>
    obtain ⟨name, rules⟩ := e
    obtain ⟨rfl, known⟩ := bare (name, rules) (by simp)
    obtain ⟨k, named⟩ := Option.isSome_iff_exists.mp known
    have nothing : (Sorted.all ⟨l, [], [], []⟩) = [] := rfl
    simp only [List.cons_append, sortCategories, named, sortRules, nothing, List.map_nil,
      List.append_nil]
    exact ih fun e member => bare e (by simp [member])

theorem wordsOnly_compiled (only : WordsOnly d k rules) : ∃ s, ofDefinition d = .ok s ∧
    s.finders = (Finder.ofWords? (rules.map (·.beginString)) false).toList.map (k, ·) ∧
      s.delimiters = [] := by
  obtain ⟨front, name, back, highlights, named, others⟩ := only.listed
  obtain ⟨outlines, inlines, blocks⟩ := only.bare
  have sorted : sortCategories [] [] d.highlights =
      .ok ([], (Finder.ofWords? (rules.map (·.beginString)) false).toList.map (k, ·)) := by
    have behind (finders : List (Category × Finder)) :
        sortCategories [] finders (back ++ []) = .ok ([], finders) :=
      sortCategories_bare fun e member => others e (by simp [member])
    have own : Sorted.all ⟨[], rules.map (·.beginString), [], []⟩ =
        (Finder.ofWords? (rules.map (·.beginString)) false).toList := List.append_nil _
    rw [highlights, sortCategories_bare fun e member => others e (by simp [member]),
      sortCategories]
    simp only [named, sortRules_words only.plain, List.nil_append, own]
    simp only [List.append_nil] at behind
    exact behind _
  rw [ofDefinition, sorted]
  simp only [outlines, readOutlines, Except.map, withComments, inlines, blocks, List.filterMap_nil,
    List.append_nil, List.foldl_nil]
  exact ⟨_, rfl, rfl, rfl⟩

theorem mem_captures_pattern {r : RuleSet} {p : Pattern} {lines : Bool} {t : Text} {found : Span}
    (finders : r.finders = [(k, .pattern p lines)]) (delimiters : r.delimiters = []) :
    (⟨k.name, found⟩ : Capture) ∈ (r.every t).map (fun f => (⟨f.1.name, f.2⟩ : Capture)) ↔
      found ∈ Pattern.strides (p.allMatches t) := by
  have spans := Finder.spans_whole p lines t
  have all : r.found (.whole t) = (Pattern.strides (p.allMatches t)).map (k, ·) := by
    have bare : Delimiters.regions [] (.whole t) = [] := rfl
    rw [RuleSet.found, finders, delimiters, bare, List.append_nil, List.flatMap_singleton, spans]
  rw [every, all, List.filter_map, List.map_map, List.mem_map]
  constructor
  · rintro ⟨s, member, same⟩
    cases same
    exact (List.mem_filter.mp member).1
  · intro member
    refine ⟨found, List.mem_filter.mpr ⟨member, ?_⟩, rfl⟩
    rw [← spans] at member
    exact whole_overlaps member

-- Every word of such a definition is found between blanks, exactly as far as it reaches, whatever
-- the other words are, if both its ends are word characters where a boundary is asked for.
theorem whole_words (only : WordsOnly d k rules)
    (solid : ∀ r ∈ rules, ∀ x ∈ Unicode.trim r.beginString, Unicode.isBlank x = false) :
    ∃ s, ofDefinition d = .ok s ∧ ∀ t, ∃ all, s.captures? t ⟨0, Text.size t⟩ = some all ∧
      ∀ r ∈ rules, ∀ left right, Unicode.trim r.beginString ≠ [] →
        t = left ++ (Unicode.trim r.beginString ++ right) → BlankAt left.getLast? →
        BlankAt right.head? →
        (⟨k.name, ⟨Text.size left, Text.size left + Text.size (Unicode.trim r.beginString)⟩⟩ ∈ all ↔
          endsFit (Unicode.trim r.beginString) = true) := by
  obtain ⟨s, made, finders, delimiters⟩ := wordsOnly_compiled only
  refine ⟨s, made, fun t =>
    ⟨_, captures_every s t, fun r member left right held whole front back => ?_⟩⟩
  have listed : Unicode.trim r.beginString ∈ Finder.arrangeWords (rules.map (·.beginString)) :=
    Finder.mem_arrangeWords.mpr ⟨held, _, List.mem_map_of_mem member, rfl⟩
  have arranged : Finder.Arranged (Finder.arrangeWords (rules.map (·.beginString))) :=
    Finder.arranged (by simpa using solid)
  have words := Finder.ofWords?_held (List.ne_nil_of_mem listed)
  rw [words, Option.toList_some, List.map_singleton] at finders
  exact (mem_captures_pattern finders delimiters).trans
    (Finder.words_found arranged listed whole front back)

theorem solid_words (all : (rules.all fun r =>
    (Unicode.trim r.beginString).all fun x => !Unicode.isBlank x) = true) :
    ∀ r ∈ rules, ∀ x ∈ Unicode.trim r.beginString, Unicode.isBlank x = false := by
  simpa using all

def beginnings : Definition :=
  { highlights := [("keywords", [.word ['i', 'n'], .word ['i', 'n', 't'], .word ['#', 'i', 'n']])] }

theorem whole_words_beginnings : ∃ s all, ofDefinition beginnings = .ok s ∧
    s.captures? ['i', 'n', ' ', '#', 'i', 'n', '\n', 'i', 'n', 't'] ⟨0, 10⟩ = some all ∧
      ⟨"keywords", ⟨0, 2⟩⟩ ∈ all ∧ ⟨"keywords", ⟨3, 6⟩⟩ ∈ all ∧ ⟨"keywords", ⟨7, 10⟩⟩ ∈ all := by
  have only : WordsOnly beginnings .keywords
      [.word ['i', 'n'], .word ['i', 'n', 't'], .word ['#', 'i', 'n']] :=
    ⟨⟨[], "keywords", [], rfl, by decide, by simp⟩, by decide, rfl, rfl, rfl⟩
  obtain ⟨s, made, words⟩ := whole_words only (solid_words rfl)
  obtain ⟨all, captured, found⟩ := words ['i', 'n', ' ', '#', 'i', 'n', '\n', 'i', 'n', 't']
  refine ⟨s, all, made, captured, ?_, ?_, ?_⟩
  · exact (found (.word ['i', 'n']) (by simp) [] [' ', '#', 'i', 'n', '\n', 'i', 'n', 't']
      (by decide) rfl (by simp [BlankAt]) (by simp [BlankAt]; decide)).mpr (by decide)
  · exact (found (.word ['#', 'i', 'n']) (by simp) ['i', 'n', ' '] ['\n', 'i', 'n', 't'] (by decide)
      rfl (by simp [BlankAt]; decide) (by simp [BlankAt]; decide)).mpr (by decide)
  · exact (found (.word ['i', 'n', 't']) (by simp) ['i', 'n', ' ', '#', 'i', 'n', '\n'] []
      (by decide) rfl (by simp [BlankAt]; decide) (by simp [BlankAt])).mpr (by decide)

-- A superscript two is a number and asks for a boundary behind it, and yet is no word character.
theorem whole_words_lost : ¬ ∀ (d : Definition) (k : Category) (rules : List HighlightRule),
    WordsOnly d k rules →
    (∀ r ∈ rules, ∀ x ∈ Unicode.trim r.beginString, Unicode.isBlank x = false) →
    ∃ s, ofDefinition d = .ok s ∧ ∀ t, ∃ all, s.captures? t ⟨0, Text.size t⟩ = some all ∧
      ∀ r ∈ rules, ∀ left right, Unicode.trim r.beginString ≠ [] →
        t = left ++ (Unicode.trim r.beginString ++ right) → BlankAt left.getLast? →
        BlankAt right.head? →
        ⟨k.name, ⟨Text.size left, Text.size left + Text.size (Unicode.trim r.beginString)⟩⟩ ∈
          all := by
  intro claim
  have only : WordsOnly { highlights := [("keywords", [.word ['x', '²'], .word ['i', 'n']])] }
      .keywords [.word ['x', '²'], .word ['i', 'n']] :=
    ⟨⟨[], "keywords", [], rfl, by decide, by simp⟩, by decide, rfl, rfl, rfl⟩
  obtain ⟨s, made, words⟩ := claim _ _ _ only (solid_words rfl)
  obtain ⟨all, captured, found⟩ := words ['x', '²', ' ', 'i', 'n']
  have lost := found (.word ['x', '²']) (by simp) [] [' ', 'i', 'n'] (by decide) rfl
    (by simp [BlankAt]) (by simp [BlankAt]; decide)
  cases made
  cases captured
  revert lost
  decide

end Rules.RuleSet

end LiveHighlight
