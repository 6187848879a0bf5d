import Mathlib.Data.List.Nodup
import LiveHighlight.Proofs.PartedRegions

-- Nested regions of one pair of delimiters. The sweep looks for opening and for closing delimiters
-- each on their own, a reader takes whatever comes next as a whole.

namespace LiveHighlight.Rules

open Occurrence (here?)

namespace Reading

def unescaped? (needle : Text) (c : Cursor) : Option Occurrence :=
  if c.isEscaped then none else here? needle c

-- Of two delimiters that start at one place the longer one is read.
def delimiter? (opening closing : Text) (c : Cursor) : Option (Role × Occurrence) :=
  match unescaped? opening c, unescaped? closing c with
  | some o, some z =>
    if z.span.length ≤ o.span.length then some (.opening, o) else some (.closing, z)
  | some o, none => some (.opening, o)
  | none, some z => some (.closing, z)
  | none, none => none

-- What has been read ends at the limit, and no delimiter starts before that.
def close? (opening closing : Text) (limit depth : Nat) : List Cursor → Option Occurrence
  | [] => none
  | c :: later =>
    if c.offset < limit then close? opening closing limit depth later
    else
      match delimiter? opening closing c with
      | none => close? opening closing limit depth later
      | some (role, o) =>
        if role.closes then
          match depth with
          | 0 => some o
          | outer + 1 => close? opening closing o.stop.offset outer later
        else close? opening closing o.stop.offset (depth + 1) later

-- A delimiter that is never closed opens nothing, and reading goes on behind it.
def regionsFrom (opening closing : Text) (limit : Nat) : List Cursor → List Span
  | [] => []
  | c :: later =>
    if c.offset < limit then regionsFrom opening closing limit later
    else
      match unescaped? opening c with
      | none => regionsFrom opening closing limit later
      | some o =>
        match close? opening closing o.stop.offset 0 later with
        | none => regionsFrom opening closing o.stop.offset later
        | some z =>
          ⟨o.start.offset, z.stop.offset⟩ :: regionsFrom opening closing z.stop.offset later

def regions (opening closing t : Text) : List Span :=
  regionsFrom opening closing 0 (Cursor.start t).onward

-- An opening one shares no byte with a closing one, and none starts within an escaped one.
structure Clear (opening closing : Text) (places : List Cursor) : Prop where
  apart : ∀ c ∈ places, ∀ d ∈ places, (here? opening c).isSome → (here? closing d).isSome →
    c.offset + Text.size opening ≤ d.offset ∨ d.offset + Text.size closing ≤ c.offset
  escaped : ∀ needle ∈ [opening, closing], ∀ c ∈ places, ∀ d ∈ places, c.isEscaped = true →
    (here? needle c).isSome → (here? needle d).isSome → c.offset < d.offset →
      c.offset + Text.size needle ≤ d.offset

variable {opening closing needle : Text} {places rest : List Cursor} {c : Cursor}
  {o z : Occurrence} {role : Role} {own limit depth front back seek : Nat}

theorem Clear.later (clear : Clear opening closing (c :: rest)) : Clear opening closing rest :=
  ⟨fun a first b second => clear.apart a (by simp [first]) b (by simp [second]),
    fun n kind a first b second => clear.escaped n kind a (by simp [first]) b (by simp [second])⟩

theorem here_span (found : here? needle c = some o) :
    o.start = c ∧ o.stop.offset = c.offset + Text.size needle := by
  obtain ⟨behind, -, rfl⟩ := Occurrence.here?_exact.mp found
  exact ⟨rfl, Nat.add_comm _ _⟩

theorem unescaped_exact :
    unescaped? needle c = some o ↔ c.isEscaped = false ∧ here? needle c = some o := by
  unfold unescaped?
  cases c.isEscaped with
  | true => simp
  | false => simp

theorem delimiter?_parts (read : delimiter? opening closing c = some (role, o)) :
    role = .opening ∧ unescaped? opening c = some o ∨
      role = .closing ∧ unescaped? closing c = some o := by
  unfold delimiter? at read
  split at read
  · rename_i first second
    split at read
    · cases read
      exact .inl ⟨rfl, first⟩
    · cases read
      exact .inr ⟨rfl, second⟩
  · rename_i first _
    cases read
    exact .inl ⟨rfl, first⟩
  · rename_i _ second
    cases read
    exact .inr ⟨rfl, second⟩
  · cases read

theorem Clear.alone (clear : Clear opening closing places) (held : opening ≠ [])
    (held' : closing ≠ []) (member : c ∈ places) :
    here? opening c = none ∨ here? closing c = none := by
  cases first : here? opening c with
  | none => exact .inl rfl
  | some o =>
    cases second : here? closing c with
    | none => exact .inr rfl
    | some z =>
      have parted := clear.apart c member c member (by simp [first]) (by simp [second])
      have positive := Text.size_pos held
      have positive' := Text.size_pos held'
      omega

theorem close?_found (found : close? opening closing limit depth places = some z) :
    ∃ d ∈ places, here? closing d = some z ∧ limit ≤ d.offset := by
  induction places generalizing limit depth with
  | nil => cases found
  | cons c later ih =>
    have further : ∀ {limit' depth'}, limit ≤ limit' →
        close? opening closing limit' depth' later = some z →
          ∃ d ∈ c :: later, here? closing d = some z ∧ limit ≤ d.offset := by
      intro limit' depth' beyond inner
      obtain ⟨d, member, stands, reached⟩ := ih inner
      exact ⟨d, by simp [member], stands, Nat.le_trans beyond reached⟩
    unfold close? at found
    split at found
    · exact further (Nat.le_refl _) found
    · rename_i early
      have reached : limit ≤ c.offset := Nat.le_of_not_lt early
      split at found
      · exact further (Nat.le_refl _) found
      · rename_i role o read
        have beyond : limit ≤ o.stop.offset := by
          rcases delimiter?_parts read with ⟨-, whole⟩ | ⟨-, whole⟩
          · have span := (here_span (unescaped_exact.mp whole).2).2
            omega
          · have span := (here_span (unescaped_exact.mp whole).2).2
            omega
        split at found
        · rename_i closes
          split at found
          · cases found
            rcases delimiter?_parts read with ⟨rfl, -⟩ | ⟨-, whole⟩
            · cases closes
            · exact ⟨c, by simp, (unescaped_exact.mp whole).2, reached⟩
          · exact further beyond found
        · exact further beyond found

-- A search for one kind of delimiters, and the reader, go on at the same ones.
def InStep (needle : Text) (own limit : Nat) (places : List Cursor) : Prop :=
  ∀ d ∈ places, d.isEscaped = false → (here? needle d).isSome →
    (own ≤ d.offset ↔ limit ≤ d.offset)

theorem InStep.later (inStep : InStep needle own limit (c :: rest)) :
    InStep needle own limit rest :=
  fun d member => inStep d (by simp [member])

theorem InStep.escaped (inStep : InStep needle own limit (c :: rest))
    (clear : Clear opening closing (c :: rest)) (kind : needle ∈ [opening, closing])
    (before : ∀ d ∈ rest, c.offset < d.offset) (reached : own ≤ c.offset)
    (found : here? needle c = some o) (escaped : c.isEscaped = true) :
    InStep needle o.stop.offset limit rest := by
  intro d member plain stands
  have following := before d member
  have behind := clear.escaped needle kind c (by simp) d (by simp [member]) escaped
    (by simp [found]) stands following
  have same := inStep d (by simp [member]) plain stands
  have span := (here_span found).2
  omega

def listed? (needle : Text) (own : Nat) (c : Cursor) : Option Occurrence :=
  if c.offset < own then none else here? needle c

def past (own : Nat) (found : Option Occurrence) : Nat :=
  (found.map fun o => o.stop.offset).getD own

def marked (w : Window) (opening closing : Text) (front back : Nat) : List Cursor → List Mark
  | [] => []
  | c :: later =>
    Mark.unescaped w 0 .opening (listed? opening front c).toList ++
      (Mark.unescaped w 0 .closing (listed? closing back c).toList ++
        marked w opening closing (past front (listed? opening front c))
          (past back (listed? closing back c)) later)

theorem apart_listed : Occurrence.apart (here? needle) own (c :: rest) =
    (listed? needle own c).toList ++
      Occurrence.apart (here? needle) (past own (listed? needle own c)) rest := by
  unfold listed? past
  rw [Occurrence.apart]
  split
  · rfl
  · cases here? needle c with
    | none => rfl
    | some o => rfl

theorem unescaped_append (w : Window) (role : Role) (a b : List Occurrence) :
    Mark.unescaped w 0 role (a ++ b) = Mark.unescaped w 0 role a ++ Mark.unescaped w 0 role b := by
  simp [Mark.unescaped]

theorem marked_perm (w : Window) (front back : Nat) (places : List Cursor) :
    (marked w opening closing front back places).Perm
    (Mark.unescaped w 0 .opening (Occurrence.apart (here? opening) front places) ++
      Mark.unescaped w 0 .closing (Occurrence.apart (here? closing) back places)) := by
  induction places generalizing front back with
  | nil => exact .refl _
  | cons c later ih =>
    rw [apart_listed, apart_listed, unescaped_append, unescaped_append, marked,
      List.append_assoc]
    apply List.Perm.append_left
    have inner := (ih (past front (listed? opening front c))
      (past back (listed? closing back c))).append_left
        (Mark.unescaped w 0 .closing (listed? closing back c).toList)
    exact inner.trans (List.perm_append_comm_assoc _ _ _)

theorem listed_exact :
    listed? needle own c = some o ↔ own ≤ c.offset ∧ here? needle c = some o := by
  unfold listed?
  split
  · simp
    omega
  · rename_i late
    simp [Nat.le_of_not_lt late]

theorem listed_none (nothing : here? needle c = none) : listed? needle own c = none := by
  rw [listed?, nothing, ite_self]

theorem Clear.listed (clear : Clear opening closing places) (held : opening ≠ [])
    (held' : closing ≠ []) (member : c ∈ places) (front back : Nat) :
    (listed? opening front c = none ∧ listed? closing back c = none) ∨
      (∃ o, listed? opening front c = some o ∧ here? closing c = none) ∨
      ∃ z, here? opening c = none ∧ listed? closing back c = some z := by
  rcases clear.alone held held' member with nothing | nothing
  · cases found : listed? closing back c with
    | none => exact .inl ⟨listed_none nothing, rfl⟩
    | some z => exact .inr (.inr ⟨z, nothing, rfl⟩)
  · cases found : listed? opening front c with
    | none => exact .inl ⟨rfl, listed_none nothing⟩
    | some o => exact .inr (.inl ⟨o, rfl, nothing⟩)

variable {w : Window} {m : Mark}

theorem unescaped_one : Mark.unescaped w 0 role [o] =
    if o.start.isEscaped then [] else [Mark.ofOccurrence w 0 role o] := by
  cases escaped : o.start.isEscaped with
  | true => simp [Mark.unescaped, escaped]
  | false => simp [Mark.unescaped, escaped]

theorem marked_nothing (first : listed? opening front c = none)
    (second : listed? closing back c = none) :
    marked w opening closing front back (c :: rest) = marked w opening closing front back rest := by
  rw [marked, first, second]
  rfl

theorem marked_opening (found : listed? opening front c = some o) (alone : here? closing c = none) :
    marked w opening closing front back (c :: rest) = Mark.unescaped w 0 .opening [o] ++
      marked w opening closing o.stop.offset back rest := by
  rw [marked, found, listed_none alone]
  rfl

theorem marked_closing (alone : here? opening c = none) (found : listed? closing back c = some z) :
    marked w opening closing front back (c :: rest) = Mark.unescaped w 0 .closing [z] ++
      marked w opening closing front z.stop.offset rest := by
  rw [marked, found, listed_none alone]
  rfl

theorem marked_opening_escaped (found : listed? opening front c = some o)
    (alone : here? closing c = none) (escaped : c.isEscaped = true) :
    marked w opening closing front back (c :: rest) =
      marked w opening closing o.stop.offset back rest := by
  have start := (here_span (listed_exact.mp found).2).1
  rw [marked_opening found alone, unescaped_one, start, if_pos escaped, List.nil_append]

theorem marked_opening_plain (found : listed? opening front c = some o)
    (alone : here? closing c = none) (plain : c.isEscaped = false) :
    marked w opening closing front back (c :: rest) = Mark.ofOccurrence w 0 .opening o ::
      marked w opening closing o.stop.offset back rest := by
  have start := (here_span (listed_exact.mp found).2).1
  rw [marked_opening found alone, unescaped_one, start, if_neg (by simp [plain]),
    List.singleton_append]

theorem marked_closing_escaped (alone : here? opening c = none)
    (found : listed? closing back c = some z) (escaped : c.isEscaped = true) :
    marked w opening closing front back (c :: rest) =
      marked w opening closing front z.stop.offset rest := by
  have start := (here_span (listed_exact.mp found).2).1
  rw [marked_closing alone found, unescaped_one, start, if_pos escaped, List.nil_append]

theorem marked_closing_plain (alone : here? opening c = none)
    (found : listed? closing back c = some z) (plain : c.isEscaped = false) :
    marked w opening closing front back (c :: rest) = Mark.ofOccurrence w 0 .closing z ::
      marked w opening closing front z.stop.offset rest := by
  have start := (here_span (listed_exact.mp found).2).1
  rw [marked_closing alone found, unescaped_one, start, if_neg (by simp [plain]),
    List.singleton_append]

def Forward (places : List Cursor) : Prop := places.Pairwise fun c d => c.offset < d.offset

theorem mem_listed (found : listed? needle own c = some o)
    (member : m ∈ Mark.unescaped w 0 role [o]) : m.span.start = c.offset := by
  obtain ⟨o', held, rfl⟩ := Mark.mem_unescaped member
  cases List.mem_singleton.mp held
  rw [← (here_span (listed_exact.mp found).2).1]
  rfl

theorem unescaped_forward {others : List Mark} (found : listed? needle own c = some o)
    (behind : ∀ n ∈ others, c.offset < n.span.start)
    (forward : others.Pairwise fun m n => m.span.start < n.span.start) :
    (Mark.unescaped w 0 role [o] ++ others).Pairwise fun m n => m.span.start < n.span.start := by
  refine List.pairwise_append.mpr ⟨?_, forward, ?_⟩
  · rw [unescaped_one]
    split
    · exact .nil
    · exact List.pairwise_singleton _ _
  · intro m own n further
    rw [mem_listed found own]
    exact behind n further

theorem mem_marked (clear : Clear opening closing places) (held : opening ≠ [])
    (held' : closing ≠ []) (member : m ∈ marked w opening closing front back places) :
    ∃ d ∈ places, m.span.start = d.offset := by
  induction places generalizing front back with
  | nil => cases member
  | cons c later ih =>
    have further : ∀ {front back}, m ∈ marked w opening closing front back later →
        ∃ d ∈ c :: later, m.span.start = d.offset := by
      intro front back inner
      obtain ⟨d, held, start⟩ := ih clear.later inner
      exact ⟨d, by simp [held], start⟩
    rcases clear.listed held held' List.mem_cons_self front back with
      ⟨first, second⟩ | ⟨o, found, alone⟩ | ⟨z, alone, found⟩
    · rw [marked_nothing first second] at member
      exact further member
    · rw [marked_opening found alone, List.mem_append] at member
      exact member.elim (fun own => ⟨c, by simp, mem_listed found own⟩) further
    · rw [marked_closing alone found, List.mem_append] at member
      exact member.elim (fun own => ⟨c, by simp, mem_listed found own⟩) further

theorem marked_forward (clear : Clear opening closing places) (held : opening ≠ [])
    (held' : closing ≠ []) (forward : Forward places) (front back : Nat) :
    (marked w opening closing front back places).Pairwise fun m n =>
      m.span.start < n.span.start := by
  induction places generalizing front back with
  | nil => exact .nil
  | cons c later ih =>
    obtain ⟨before, others⟩ := List.pairwise_cons.mp forward
    have behind (front back : Nat) :
        ∀ n ∈ marked w opening closing front back later, c.offset < n.span.start := by
      intro n further
      obtain ⟨d, member, start⟩ := mem_marked clear.later held held' further
      rw [start]
      exact before d member
    rcases clear.listed held held' List.mem_cons_self front back with
      ⟨first, second⟩ | ⟨o, found, alone⟩ | ⟨z, alone, found⟩
    · rw [marked_nothing first second]
      exact ih clear.later others front back
    · rw [marked_opening found alone]
      exact unescaped_forward found (behind _ _) (ih clear.later others _ _)
    · rw [marked_closing alone found]
      exact unescaped_forward found (behind _ _) (ih clear.later others _ _)

theorem onward_bounds (c : Cursor) :
    ∀ d ∈ c.onward, c.offset ≤ d.offset ∧ d.offset ≤ c.offset + Text.size c.rest := by
  generalize whole : c.rest = t
  induction t generalizing c with
  | nil =>
    rw [Occurrence.onward_last whole]
    intro d member
    cases List.mem_singleton.mp member
    omega
  | cons x t ih =>
    have moved : (c.advance x t).offset = x.utf8Size + c.offset := rfl
    rw [Occurrence.onward_more whole, Text.size_cons]
    intro d member
    rcases List.mem_cons.mp member with rfl | further
    · omega
    · have bounds := ih (c.advance x t) rfl d further
      omega

theorem onward_forward (c : Cursor) : Forward c.onward := by
  generalize whole : c.rest = t
  induction t generalizing c with
  | nil =>
    rw [Occurrence.onward_last whole]
    exact List.pairwise_singleton _ _
  | cons x t ih =>
    have moved : (c.advance x t).offset = x.utf8Size + c.offset := rfl
    rw [Occurrence.onward_more whole]
    refine List.pairwise_cons.mpr ⟨fun d further => ?_, ih _ rfl⟩
    have bounds := onward_bounds (c.advance x t) d further
    have positive := x.utf8Size_pos
    omega

def nested (opening closing : Text) (k : Category) : Delimiters := [(.pair opening closing true, k)]

theorem sorted_marked (k : Category) (distinct : opening ≠ closing) (held : opening ≠ [])
    (held' : closing ≠ []) (clear : Clear opening closing w.start.onward) :
    Mark.sorted w (nested opening closing k) = marked w opening closing 0 0 w.start.onward := by
  have forward := marked_forward (w := w) clear held held' (onward_forward w.start) 0 0
  have listed : Mark.ofDelimiters w 0 (nested opening closing k) =
      Mark.unescaped w 0 .opening (Occurrence.all w opening) ++
        Mark.unescaped w 0 .closing (Occurrence.all w closing) := by
    simp [nested, Mark.ofDelimiters, Mark.ofDelimiter, distinct]
  have same : (Mark.sorted w (nested opening closing k)).Perm
      (marked w opening closing 0 0 w.start.onward) := by
    refine (Order.sort_perm _).trans ?_
    rw [listed]
    exact (marked_perm w 0 0 _).symm
  refine same.eq_of_pairwise ?_ (Order.sort_sorted Mark.le_total Mark.le_trans _) (forward.imp ?_)
  · intro m n first second before behind
    have starts : m.span.start = n.span.start := by
      simp only [Mark.le, Bool.or_eq_true, Bool.and_eq_true, decide_eq_true_eq, beq_iff_eq]
        at before behind
      omega
    have once : ((marked w opening closing 0 0 w.start.onward).map fun m => m.span.start).Nodup :=
      List.pairwise_map.mpr (forward.imp fun before => Nat.ne_of_lt before)
    exact List.inj_on_of_nodup_map once (same.mem_iff.mp first) second starts
  · intro m n before
    simp [Mark.le, before]

theorem unescaped_none (nothing : here? needle c = none) : unescaped? needle c = none := by
  rw [unescaped?, nothing, ite_self]

theorem unescaped_escaped (escaped : c.isEscaped = true) : unescaped? needle c = none :=
  if_pos escaped

theorem delimiter?_opening (alone : here? closing c = none) :
    delimiter? opening closing c = (unescaped? opening c).map (.opening, ·) := by
  rw [delimiter?, unescaped_none alone]
  cases unescaped? opening c with
  | none => rfl
  | some o => rfl

theorem delimiter?_closing (alone : here? opening c = none) :
    delimiter? opening closing c = (unescaped? closing c).map (.closing, ·) := by
  rw [delimiter?, unescaped_none alone]
  cases unescaped? closing c with
  | none => rfl
  | some z => rfl

theorem InStep.unlisted (inStep : InStep needle own limit (c :: rest)) (reached : limit ≤ c.offset)
    (nothing : listed? needle own c = none) : unescaped? needle c = none := by
  cases found : unescaped? needle c with
  | none => rfl
  | some o =>
    obtain ⟨plain, stands⟩ := unescaped_exact.mp found
    have passed := (inStep c (by simp) plain (by simp [stands])).mpr reached
    cases nothing.symm.trans (listed_exact.mpr ⟨passed, stands⟩)

theorem InStep.listed (inStep : InStep needle own limit (c :: rest))
    (found : listed? needle own c = some o) (plain : c.isEscaped = false) : limit ≤ c.offset := by
  obtain ⟨passed, stands⟩ := listed_exact.mp found
  exact (inStep c (by simp) plain (by simp [stands])).mp passed

theorem InStep.other (inStep : InStep needle own limit (c :: rest)) {stop : Nat}
    (before : ∀ d ∈ rest, c.offset < d.offset) (reached : limit ≤ c.offset)
    (behind : ∀ d ∈ rest, (here? needle d).isSome → stop ≤ d.offset) :
    InStep needle own stop rest := by
  intro d member plain stands
  have same := inStep d (by simp [member]) plain stands
  have following := before d member
  have further := behind d member stands
  omega

theorem Clear.opening_stop (clear : Clear opening closing (c :: rest))
    (before : ∀ d ∈ rest, c.offset < d.offset) (found : here? opening c = some o) :
    ∀ d ∈ rest, (here? closing d).isSome → o.stop.offset ≤ d.offset := by
  intro d member stands
  have parted := clear.apart c (by simp) d (by simp [member]) (by simp [found]) stands
  have following := before d member
  have span := (here_span found).2
  omega

theorem Clear.closing_stop (clear : Clear opening closing (c :: rest))
    (before : ∀ d ∈ rest, c.offset < d.offset) (found : here? closing c = some z) :
    ∀ d ∈ rest, (here? opening d).isSome → z.stop.offset ≤ d.offset := by
  intro d member stands
  have parted := clear.apart d (by simp [member]) c (by simp) stands (by simp [found])
  have following := before d member
  have span := (here_span found).2
  omega

variable {bound : Nat} {marks : List Mark}

theorem close?_deeper (own : m.delimiter = 0) (near : m.span.start ≤ bound)
    (goes : m.role.closes = false) : (Mark.close? 0 bound depth (m :: marks)).map Prod.snd =
      (Mark.close? 0 bound (depth + 1) marks).map Prod.snd := by
  simp [Mark.close?, own, Nat.not_lt_of_ge near, goes, Function.comp_def]

theorem close?_outer (own : m.delimiter = 0) (near : m.span.start ≤ bound)
    (closes : m.role.closes = true) :
    (Mark.close? 0 bound (depth + 1) (m :: marks)).map Prod.snd =
      (Mark.close? 0 bound depth marks).map Prod.snd := by
  simp [Mark.close?, own, Nat.not_lt_of_ge near, closes, Function.comp_def]

theorem close?_here (own : m.delimiter = 0) (near : m.span.start ≤ bound)
    (closes : m.role.closes = true) : Mark.close? 0 bound 0 (m :: marks) = some (0, m) := by
  simp [Mark.close?, own, Nat.not_lt_of_ge near, closes]

-- What the reader makes of the place it stands at.

theorem close?_passed (nothing : limit ≤ c.offset → delimiter? opening closing c = none) :
    close? opening closing limit depth (c :: rest) = close? opening closing limit depth rest := by
  rw [close?]
  split
  · rfl
  · rename_i early
    rw [nothing (Nat.le_of_not_lt early)]

theorem close?_opening (reached : limit ≤ c.offset)
    (read : delimiter? opening closing c = some (.opening, o)) :
    close? opening closing limit depth (c :: rest) =
      close? opening closing o.stop.offset (depth + 1) rest := by
  rw [close?, if_neg (Nat.not_lt_of_ge reached), read]
  rfl

theorem close?_last (reached : limit ≤ c.offset)
    (read : delimiter? opening closing c = some (.closing, z)) :
    close? opening closing limit 0 (c :: rest) = some z := by
  rw [close?, if_neg (Nat.not_lt_of_ge reached), read]
  rfl

theorem close?_inner (reached : limit ≤ c.offset)
    (read : delimiter? opening closing c = some (.closing, z)) :
    close? opening closing limit (depth + 1) (c :: rest) =
      close? opening closing z.stop.offset depth rest := by
  rw [close?, if_neg (Nat.not_lt_of_ge reached), read]
  rfl

structure Legible (opening closing : Text) (bound : Nat) (places : List Cursor) : Prop where
  held : opening ≠ []
  held' : closing ≠ []
  clear : Clear opening closing places
  forward : Forward places
  within : ∀ d ∈ places, d.offset ≤ bound

theorem Legible.later (legible : Legible opening closing bound (c :: rest)) :
    Legible opening closing bound rest :=
  ⟨legible.held, legible.held', legible.clear.later, (List.pairwise_cons.mp legible.forward).2,
    fun d member => legible.within d (by simp [member])⟩

theorem Legible.before (legible : Legible opening closing bound (c :: rest)) :
    ∀ d ∈ rest, c.offset < d.offset := (List.pairwise_cons.mp legible.forward).1

theorem Legible.near (legible : Legible opening closing bound (c :: rest))
    (stands : here? needle c = some o) : o.start.offset ≤ bound :=
  (here_span stands).1 ▸ legible.within c (by simp)

-- A sweep that stands behind an opening delimiter closes the region where the reader does.
def ClosesAlike (w : Window) (opening closing : Text) (bound : Nat) (places : List Cursor) : Prop :=
  ∀ front back limit depth, InStep opening front limit places → InStep closing back limit places →
    (Mark.close? 0 bound depth (marked w opening closing front back places)).map Prod.snd =
      (close? opening closing limit depth places).map (Mark.ofOccurrence w 0 .closing)

theorem closes_opening (legible : Legible opening closing bound (c :: rest))
    (alike : ClosesAlike w opening closing bound rest) (first : InStep opening front limit (c :: rest))
    (second : InStep closing back limit (c :: rest)) (found : listed? opening front c = some o)
    (alone : here? closing c = none) :
    (Mark.close? 0 bound depth (marked w opening closing front back (c :: rest))).map Prod.snd =
      (close? opening closing limit depth (c :: rest)).map (Mark.ofOccurrence w 0 .closing) := by
  obtain ⟨passed, stands⟩ := listed_exact.mp found
  cases escaped : c.isEscaped with
  | true =>
    have kept := first.escaped legible.clear (by simp) legible.before passed stands escaped
    rw [marked_opening_escaped found alone escaped, alike _ _ _ _ kept second.later, close?_passed]
    intro _
    rw [delimiter?_opening alone, unescaped_escaped escaped, Option.map_none]
  | false =>
    have reached := first.listed found escaped
    have read : delimiter? opening closing c = some (.opening, o) := by
      rw [delimiter?_opening alone, unescaped_exact.mpr ⟨escaped, stands⟩, Option.map_some]
    have kept : InStep closing back o.stop.offset rest :=
      second.other legible.before reached (legible.clear.opening_stop legible.before stands)
    rw [marked_opening_plain found alone escaped, close?_deeper rfl (legible.near stands) rfl,
      alike _ _ _ _ (fun _ _ _ _ => Iff.rfl) kept, close?_opening reached read]

theorem closes_closing (legible : Legible opening closing bound (c :: rest))
    (alike : ClosesAlike w opening closing bound rest) (first : InStep opening front limit (c :: rest))
    (second : InStep closing back limit (c :: rest)) (alone : here? opening c = none)
    (found : listed? closing back c = some z) :
    (Mark.close? 0 bound depth (marked w opening closing front back (c :: rest))).map Prod.snd =
      (close? opening closing limit depth (c :: rest)).map (Mark.ofOccurrence w 0 .closing) := by
  obtain ⟨passed, stands⟩ := listed_exact.mp found
  cases escaped : c.isEscaped with
  | true =>
    have kept := second.escaped legible.clear (by simp) legible.before passed stands escaped
    rw [marked_closing_escaped alone found escaped, alike _ _ _ _ first.later kept, close?_passed]
    intro _
    rw [delimiter?_closing alone, unescaped_escaped escaped, Option.map_none]
  | false =>
    have reached := second.listed found escaped
    have read : delimiter? opening closing c = some (.closing, z) := by
      rw [delimiter?_closing alone, unescaped_exact.mpr ⟨escaped, stands⟩, Option.map_some]
    have kept : InStep opening front z.stop.offset rest :=
      first.other legible.before reached (legible.clear.closing_stop legible.before stands)
    rw [marked_closing_plain alone found escaped]
    cases depth with
    | zero =>
      rw [close?_here rfl (legible.near stands) rfl, close?_last reached read]
      rfl
    | succ outer =>
      rw [close?_outer rfl (legible.near stands) rfl,
        alike _ _ _ _ kept (fun _ _ _ _ => Iff.rfl), close?_inner reached read]

theorem closes_alike (legible : Legible opening closing bound places) :
    ClosesAlike w opening closing bound places := by
  induction places with
  | nil => exact fun _ _ _ _ _ _ => rfl
  | cons c later ih =>
    intro front back limit depth first second
    rcases legible.clear.listed legible.held legible.held' List.mem_cons_self front back with
      ⟨unlisted, unlisted'⟩ | ⟨o, found, alone⟩ | ⟨z, alone, found⟩
    · rw [marked_nothing unlisted unlisted', ih legible.later _ _ _ _ first.later second.later,
        close?_passed]
      intro reached
      simp [delimiter?, first.unlisted reached unlisted, second.unlisted reached unlisted']
    · exact closes_opening legible (ih legible.later) first second found alone
    · exact closes_closing legible (ih legible.later) first second alone found

theorem close?_before {index n : Nat} (ordered : Mark.Ordered marks)
    (found : Mark.close? index bound depth marks = some (n, m)) :
    ∀ x ∈ marks.take n, x.span.start ≤ m.span.start := by
  obtain ⟨a, b, rfl, rfl, -, -⟩ := Mark.close?_parts found
  rw [List.take_left]
  intro x earlier
  exact (List.pairwise_append.mp ordered).2.2 x earlier m (by simp)

theorem regionsFrom_passed {l : Delimiters} {passing : Nat}
    (early : ∀ x ∈ marks.take passing, x.span.start < seek) :
    Delimiters.regionsFrom l w passing seek marks = Delimiters.regionsFrom l w 0 seek marks := by
  induction marks generalizing passing with
  | nil => rfl
  | cons first others ih =>
    cases passing with
    | zero => rfl
    | succ left =>
      rw [List.take_succ_cons, List.forall_mem_cons] at early
      simp only [Delimiters.regionsFrom, early.1, decide_true, Bool.or_true, if_true]
      exact ih early.2

-- Between regions, where sweep and reader look for the next opening delimiter.
structure Outside (opening : Text) (front back seek limit : Nat) (places : List Cursor) : Prop where
  opens : ∀ d ∈ places, d.isEscaped = false → (here? opening d).isSome →
    (front ≤ d.offset ∧ seek ≤ d.offset ↔ limit ≤ d.offset)
  closes : ∀ d ∈ places, (here? opening d).isSome → back ≤ d.offset
  sought : ∀ d ∈ places, (here? opening d).isSome → d.offset < seek →
    d.offset + Text.size opening ≤ seek

theorem Outside.later (outside : Outside opening front back seek limit (c :: rest)) :
    Outside opening front back seek limit rest :=
  ⟨fun d member => outside.opens d (by simp [member]),
    fun d member => outside.closes d (by simp [member]),
    fun d member => outside.sought d (by simp [member])⟩

theorem Outside.escaped (outside : Outside opening front back seek limit (c :: rest))
    (legible : Legible opening closing bound (c :: rest)) (found : listed? opening front c = some o)
    (escaped : c.isEscaped = true) : Outside opening o.stop.offset back seek limit rest := by
  obtain ⟨passed, stands⟩ := listed_exact.mp found
  have stop := (here_span stands).2
  refine ⟨fun d member plain other => ?_, outside.later.closes, outside.later.sought⟩
  have following := legible.before d member
  have behind := legible.clear.escaped opening (by simp) c (by simp) d (by simp [member]) escaped
    (by simp [stands]) other following
  have same := outside.opens d (by simp [member]) plain other
  omega

theorem Outside.inside (outside : Outside opening front back seek limit (c :: rest))
    (legible : Legible opening closing bound (c :: rest)) (found : listed? opening front c = some o)
    (early : c.offset < seek) : Outside opening o.stop.offset back seek limit rest := by
  obtain ⟨passed, stands⟩ := listed_exact.mp found
  have stop := (here_span stands).2
  have whole := outside.sought c (by simp) (by simp [stands]) early
  refine ⟨fun d member plain other => ?_, outside.later.closes, outside.later.sought⟩
  have following := legible.before d member
  have same := outside.opens d (by simp [member]) plain other
  omega

theorem Outside.unclosed (outside : Outside opening front back seek limit (c :: rest))
    (legible : Legible opening closing bound (c :: rest)) (late : seek ≤ c.offset) (own : Nat) :
    Outside opening own back seek own rest := by
  refine ⟨fun d member _ _ => ?_, outside.later.closes, outside.later.sought⟩
  have following := legible.before d member
  omega

-- No opening delimiter reaches across the closing one that has been found.
theorem Outside.closed (outside : Outside opening front back seek limit (c :: rest))
    (clear : Clear opening closing rest) (own : Nat)
    (read : close? opening closing own 0 rest = some z) (further : own ≤ z.stop.offset) :
    Outside opening own back z.stop.offset z.stop.offset rest := by
  obtain ⟨e, member, stands, -⟩ := close?_found read
  obtain ⟨-, stop⟩ := here_span stands
  refine ⟨fun d _ _ _ => ?_, outside.later.closes, fun d among other inside => ?_⟩
  · omega
  · have parted := clear.apart d among e member other (by simp [stands])
    omega

theorem Outside.behind (outside : Outside opening front back seek limit (c :: rest))
    (legible : Legible opening closing bound (c :: rest)) (found : listed? closing back c = some z) :
    Outside opening front z.stop.offset seek limit rest :=
  ⟨outside.later.opens,
    legible.clear.closing_stop legible.before (listed_exact.mp found).2, outside.later.sought⟩

theorem Outside.inStep (outside : Outside opening front back seek limit (c :: rest))
    (legible : Legible opening closing bound (c :: rest)) (stands : here? opening c = some o) :
    InStep closing back o.stop.offset rest := by
  intro d member _ other
  have following := legible.before d member
  have listed := outside.closes c (by simp) (by simp [stands])
  have behind := legible.clear.opening_stop legible.before stands d member other
  omega

theorem regionsFrom_skipped (nothing : limit ≤ c.offset → unescaped? opening c = none) :
    regionsFrom opening closing limit (c :: rest) = regionsFrom opening closing limit rest := by
  rw [regionsFrom]
  split
  · rfl
  · rename_i early
    rw [nothing (Nat.le_of_not_lt early)]

theorem regionsFrom_unlisted (unlisted : listed? opening front c = none)
    (outside : Outside opening front back seek limit (c :: rest)) :
    regionsFrom opening closing limit (c :: rest) = regionsFrom opening closing limit rest := by
  refine regionsFrom_skipped fun reached => ?_
  cases read : unescaped? opening c with
  | none => rfl
  | some o =>
    obtain ⟨plain, stands⟩ := unescaped_exact.mp read
    have passed := ((outside.opens c (by simp) plain (by simp [stands])).mpr reached).1
    cases unlisted.symm.trans (listed_exact.mpr ⟨passed, stands⟩)

variable {k : Category}

def ReadsAlike (w : Window) (k : Category) (opening closing : Text) (places : List Cursor) : Prop :=
  ∀ front back seek limit, Outside opening front back seek limit places →
    Delimiters.regionsFrom (nested opening closing k) w 0 seek
        (marked w opening closing front back places) =
      (regionsFrom opening closing limit places).map (0, ·)

-- An opening delimiter that belongs to no region yet opens one, unless it is never closed.
theorem reads_opened (legible : Legible opening closing w.span.stop (c :: rest))
    (alike : ReadsAlike w k opening closing rest)
    (outside : Outside opening front back seek limit (c :: rest))
    (stands : here? opening c = some o) (plain : c.isEscaped = false) (late : seek ≤ c.offset)
    (reached : limit ≤ c.offset) :
    Delimiters.regionsFrom (nested opening closing k) w 0 seek (Mark.ofOccurrence w 0 .opening o ::
        marked w opening closing o.stop.offset back rest) =
      (regionsFrom opening closing limit (c :: rest)).map (0, ·) := by
  have start := (here_span stands).1
  have closes := closes_alike legible.later (w := w) o.stop.offset back o.stop.offset 0
    (fun _ _ _ _ => Iff.rfl) (outside.inStep legible stands)
  have starts : (Mark.ofOccurrence w 0 .opening o).span.start = c.offset :=
    congrArg Cursor.offset start
  have all : Delimiters.reach (nested opening closing k) w (Mark.ofOccurrence w 0 .opening o) =
    w.span.stop := rfl
  have own : (Mark.ofOccurrence w 0 .opening o).delimiter = 0 := rfl
  rw [Delimiters.regionsFrom_opened rfl (starts ▸ late), all, own, starts, regionsFrom,
    if_neg (Nat.not_lt_of_ge reached), unescaped_exact.mpr ⟨plain, stands⟩]
  dsimp only
  cases read : close? opening closing o.stop.offset 0 rest with
  | none =>
    rw [read, Option.map_none, Option.map_eq_none_iff] at closes
    rw [closes]
    exact alike _ _ _ _ (outside.unclosed legible late _)
  | some z =>
    rw [read, Option.map_some, Option.map_eq_some_iff] at closes
    obtain ⟨⟨between, m⟩, closed, rfl⟩ := closes
    obtain ⟨e, -, closing_stands, beyond⟩ := close?_found read
    obtain ⟨start', stop'⟩ := here_span closing_stands
    have positive := Text.size_pos legible.held'
    have ordered := (marked_forward (w := w) legible.later.clear legible.held legible.held'
      legible.later.forward o.stop.offset back).imp Nat.le_of_lt
    have early : ∀ x ∈ (marked w opening closing o.stop.offset back rest).take between,
        x.span.start < z.stop.offset := by
      intro x among
      have first := close?_before ordered closed x among
      simp only [Mark.ofOccurrence, Occurrence.span, start'] at first
      omega
    have next := outside.closed legible.later.clear _ read (by omega)
    rw [closed, Delimiters.opened]
    dsimp only [Mark.ofOccurrence, Occurrence.span]
    rw [regionsFrom_passed early, alike _ _ _ _ next, List.map_cons, start]

theorem reads_opening (legible : Legible opening closing w.span.stop (c :: rest))
    (alike : ReadsAlike w k opening closing rest)
    (outside : Outside opening front back seek limit (c :: rest))
    (found : listed? opening front c = some o) (alone : here? closing c = none) :
    Delimiters.regionsFrom (nested opening closing k) w 0 seek
        (marked w opening closing front back (c :: rest)) =
      (regionsFrom opening closing limit (c :: rest)).map (0, ·) := by
  obtain ⟨passed, stands⟩ := listed_exact.mp found
  cases escaped : c.isEscaped with
  | true =>
    rw [marked_opening_escaped found alone escaped,
      regionsFrom_skipped fun _ => unescaped_escaped escaped]
    exact alike _ _ _ _ (outside.escaped legible found escaped)
  | false =>
    have same := outside.opens c (by simp) escaped (by simp [stands])
    rw [marked_opening_plain found alone escaped]
    by_cases early : c.offset < seek
    · have starts : (Mark.ofOccurrence w 0 .opening o).span.start = c.offset :=
        congrArg Cursor.offset (here_span stands).1
      rw [Delimiters.regionsFrom_idle (.inr (starts ▸ early)), regionsFrom_skipped fun reached =>
        absurd (same.mpr reached).2 (Nat.not_le_of_lt early)]
      exact alike _ _ _ _ (outside.inside legible found early)
    · have late : seek ≤ c.offset := Nat.le_of_not_lt early
      exact reads_opened legible alike outside stands escaped late (same.mp ⟨passed, late⟩)

theorem reads_closing (legible : Legible opening closing w.span.stop (c :: rest))
    (alike : ReadsAlike w k opening closing rest)
    (outside : Outside opening front back seek limit (c :: rest))
    (alone : here? opening c = none) (found : listed? closing back c = some z) :
    Delimiters.regionsFrom (nested opening closing k) w 0 seek
        (marked w opening closing front back (c :: rest)) =
      (regionsFrom opening closing limit (c :: rest)).map (0, ·) := by
  rw [regionsFrom_skipped fun _ => unescaped_none alone]
  cases escaped : c.isEscaped with
  | true =>
    rw [marked_closing_escaped alone found escaped]
    exact alike _ _ _ _ (outside.behind legible found)
  | false =>
    rw [marked_closing_plain alone found escaped, Delimiters.regionsFrom_idle (.inl rfl)]
    exact alike _ _ _ _ (outside.behind legible found)

theorem reads_alike (legible : Legible opening closing w.span.stop places) :
    ReadsAlike w k opening closing places := by
  induction places with
  | nil => exact fun _ _ _ _ _ => rfl
  | cons c later ih =>
    intro front back seek limit outside
    rcases legible.clear.listed legible.held legible.held' List.mem_cons_self front back with
      ⟨unlisted, unlisted'⟩ | ⟨o, found, alone⟩ | ⟨z, alone, found⟩
    · rw [marked_nothing unlisted unlisted', regionsFrom_unlisted unlisted outside]
      exact ih legible.later _ _ _ _ outside.later
    · exact reads_opening legible (ih legible.later) outside found alone
    · exact reads_closing legible (ih legible.later) outside alone found

-- The sweep reads nested regions from left to right, as long as delimiters can be told apart.
theorem nested_read (k : Category) (t : Text) (held : opening ≠ []) (held' : closing ≠ [])
    (distinct : opening ≠ closing) (clear : Clear opening closing (Cursor.start t).onward) :
    (nested opening closing k).regions (.whole t) = (regions opening closing t).map (k, ·) := by
  have within : ∀ d ∈ (Cursor.start t).onward, d.offset ≤ (Window.whole t).span.stop :=
    fun d member => (onward_bounds (.start t) d member).2
  have start : Outside opening 0 0 0 0 (Cursor.start t).onward := by
    refine ⟨fun d _ _ _ => ?_, fun d _ _ => Nat.zero_le _, fun d _ _ before => ?_⟩
    · omega
    · omega
  have sorted := sorted_marked (w := .whole t) k distinct held held' clear
  have legible : Legible opening closing (Window.whole t).span.stop (Cursor.start t).onward :=
    ⟨held, held', clear, onward_forward _, within⟩
  have read := reads_alike (w := .whole t) (k := k) legible 0 0 0 0 start
  unfold Delimiters.regions regions
  rw [sorted]
  refine (congrArg (List.filterMap _) read).trans ?_
  rw [List.filterMap_map]
  exact congrFun (List.filterMap_eq_map (f := fun s => (k, s))) _

def brackets : Text :=
  ['[', '[', 'a', '[', '[', ']', ']', ' ', ']', ']', ']', '\\', '[', '[', 'b', '[', '[']

theorem nested_read_brackets :
    (nested ['[', '['] [']', ']'] .comments).regions (.whole brackets) = [(.comments, ⟨0, 10⟩)] :=
  (nested_read .comments brackets (by decide) (by decide) (by decide)
    ⟨by decide +kernel, by decide +kernel⟩).trans (by decide +kernel)

-- The end of a comment may not use what its beginning has used up.
theorem nested_read_shared : ¬ ∀ (opening closing t : Text) (k : Category), opening ≠ [] →
    closing ≠ [] → opening ≠ closing →
    (nested opening closing k).regions (.whole t) = (regions opening closing t).map (k, ·) := by
  intro claim
  have same := claim ['/', '*'] ['*', '/'] ['/', '*', '/'] .comments (by decide) (by decide)
    (by decide)
  have swept : (nested ['/', '*'] ['*', '/'] .comments).regions (.whole ['/', '*', '/']) =
      [(.comments, ⟨0, 3⟩)] := rfl
  have read : regions ['/', '*'] ['*', '/'] ['/', '*', '/'] = [] := rfl
  rw [swept, read] at same
  cases same

end Reading

end LiveHighlight.Rules
