import LiveHighlight.Proofs.Moves
import LiveHighlight.Proofs.Tracking

-- The operations of a session once more, on numbers of a fixed width. A sum, difference or cut
-- that fails leaves no result; on texts that can be stored none does.

namespace LiveHighlight

namespace Width

-- Offsets have 64 bits, signed distances one less on either side of 0.

def sum? (a b : Nat) : Option Nat := if a + b < offsetLimit then some (a + b) else none

def difference? (a b : Nat) : Option Nat := if b ≤ a then some (a - b) else none

def moved? (a : Nat) (distance : Int) : Option Nat :=
  if 0 ≤ a + distance ∧ a + distance < offsetLimit then some (a + distance).toNat else none

def distance? (a b : Int) : Option Int :=
  if -0x8000000000000000 ≤ a - b ∧ a - b < 0x8000000000000000 then some (a - b) else none

def cutOut? (l : List Nat) (first last : Nat) : Option (List Nat) :=
  if first ≤ last ∧ last ≤ l.length then some (l.take first ++ l.drop last) else none

theorem sum?_eq {a b : Nat} (fits : a + b < offsetLimit) : sum? a b = some (a + b) := if_pos fits

theorem difference?_eq {a b : Nat} (ordered : b ≤ a) : difference? a b = some (a - b) :=
  if_pos ordered

theorem mapM_eq {α β : Type} {f : α → Option β} {g : α → β} {l : List α}
    (each : ∀ a ∈ l, f a = some (g a)) : l.mapM f = some (l.map g) := by
  induction l with
  | nil => rfl
  | cons a rest ih =>
    have others := ih fun b member => each b (by simp [member])
    simp [List.mapM_cons, each a (by simp), others]

end Width

open Width

namespace LineIndex

def startsBehind? (offset : Nat) : Text → Option (List Nat)
  | [] => some []
  | '\r' :: '\n' :: rest => do
    let next ← sum? offset 2
    let later ← startsBehind? next rest
    some (next :: later)
  | c :: rest => do
    let next ← sum? offset c.utf8Size
    let later ← startsBehind? next rest
    some (if Text.isTerminator c then next :: later else later)

def ofText? (t : Text) : Option LineIndex := (startsBehind? 0 t).map fun starts => ⟨0 :: starts⟩

def countBefore (starts : List Nat) (offset : Nat) : Nat := (starts.takeWhile (· < offset)).length

-- The start of the row has to be there, at or before the offset.
def checkedPoint (ix : LineIndex) (offset : Nat) : Option (Option Point) :=
  match countBefore ix.starts (offset + 1) with
  | 0 => some none
  | row + 1 => do
    let start ← ix.starts[row]?
    let column ← difference? offset start
    some (some ⟨row, column⟩)

def shiftFrom? (offset : Nat) (delta : Int) (starts : List Nat) : Option (List Nat) :=
  starts.mapM fun s => if offset ≤ s then moved? s delta else some s

variable {starts : List Nat} {t : Text} {n offset : Nat}

theorem startsBehind?_eq (fits : offset + Text.size t < offsetLimit) :
    startsBehind? offset t = some (startsBehind offset t) := by
  induction offset, t using startsBehind.induct with
  | case1 => rfl
  | case2 offset rest ih =>
    have within : offset + 2 + Text.size rest < offsetLimit := by
      have two : Text.size ('\r' :: '\n' :: rest) = 1 + (1 + Text.size rest) := rfl
      omega
    rw [startsBehind?, startsBehind, sum?_eq (by omega), Option.bind_eq_bind, Option.bind_some,
      ih within]
    rfl
  | case3 offset c rest unpaired next ends ih =>
    have within : offset + c.utf8Size + Text.size rest < offsetLimit := by
      rwa [Text.size, ← Nat.add_assoc] at fits
    rw [startsBehind?, startsBehind, sum?_eq (by omega), Option.bind_eq_bind, Option.bind_some,
      ih within]
    · simp [ends, next]
    · exact unpaired
    · exact unpaired
  | case4 offset c rest unpaired next goes ih =>
    have within : offset + c.utf8Size + Text.size rest < offsetLimit := by
      rwa [Text.size, ← Nat.add_assoc] at fits
    rw [startsBehind?, startsBehind, sum?_eq (by omega), Option.bind_eq_bind, Option.bind_some,
      ih within]
    · simp [goes, next]
    · exact unpaired
    · exact unpaired

theorem ofText?_eq (fits : Text.size t < offsetLimit) : ofText? t = some (.ofText t) := by
  rw [ofText?, startsBehind?_eq (by omega)]
  rfl

theorem startsBehind_placed (base offset : Nat) (t : Text) :
    (startsBehind offset t).map (base + ·) = startsBehind (base + offset) t := by
  induction offset, t using startsBehind.induct with
  | case1 => rfl
  | case2 offset rest ih => simp [startsBehind, ih, Nat.add_assoc]
  | case3 offset c rest unpaired next ends ih =>
    rw [startsBehind, startsBehind, if_pos ends, if_pos ends, List.map_cons, ih, Nat.add_assoc]
    · exact unpaired
    · exact unpaired
  | case4 offset c rest unpaired next goes ih =>
    rw [startsBehind, startsBehind, if_neg goes, if_neg goes, ih, Nat.add_assoc]
    · exact unpaired
    · exact unpaired

theorem countBefore_cons_lt {s : Nat} {rest : List Nat} (early : s < n) :
    countBefore (s :: rest) n = countBefore rest n + 1 := by
  simp [countBefore, early]

theorem countBefore_cons_ge {s : Nat} {rest : List Nat} (late : n ≤ s) :
    countBefore (s :: rest) n = 0 := by
  simp [countBefore, Nat.not_lt.mpr late]

theorem drop_countBefore (sorted : starts.Pairwise (· < ·)) :
    starts.drop (countBefore starts n) = starts.filter (n ≤ ·) := by
  induction starts with
  | nil => rfl
  | cons s rest ih =>
    obtain ⟨first, others⟩ := List.pairwise_cons.mp sorted
    by_cases early : s < n
    · rw [countBefore_cons_lt early, List.drop_succ_cons, ih others,
        List.filter_cons_of_neg (by simpa using early)]
    · have all : ∀ x ∈ s :: rest, decide (n ≤ x) = true := by
        intro x member
        rcases List.mem_cons.mp member with rfl | later
        · simpa using early
        · have behind := first x later
          simp only [decide_eq_true_eq]
          omega
      rw [countBefore_cons_ge (by omega), List.filter_eq_self.mpr all]
      rfl

theorem cutOut?_eq (sorted : starts.Pairwise (· < ·)) {first last : Nat}
    (ordered : first ≤ last) :
    cutOut? starts (countBefore starts (first + 1)) (countBefore starts (last + 1)) =
      some (starts.filter fun s => !(first < s && s ≤ last)) := by
  have cut : countBefore starts (first + 1) ≤ countBefore starts (last + 1) ∧
      countBefore starts (last + 1) ≤ starts.length ∧
      starts.take (countBefore starts (first + 1)) ++
          starts.drop (countBefore starts (last + 1)) =
        starts.filter fun s => !(first < s && s ≤ last) := by
    induction starts with
    | nil => simp [countBefore]
    | cons s rest ih =>
      have others := (List.pairwise_cons.mp sorted).2
      by_cases early : s < first + 1
      · obtain ⟨fewer, within, joined⟩ := ih others
        rw [countBefore_cons_lt early, countBefore_cons_lt (by omega)]
        refine ⟨by omega, by simpa using within, ?_⟩
        rw [List.take_succ_cons, List.drop_succ_cons, List.cons_append, joined,
          List.filter_cons_of_pos (by simp; omega)]
      · have behind : ∀ x ∈ s :: rest, first < x := by
          intro x member
          rcases List.mem_cons.mp member with rfl | later
          · omega
          · have following := (List.pairwise_cons.mp sorted).1 x later
            omega
        rw [countBefore_cons_ge (by omega), List.take_zero, List.nil_append,
          drop_countBefore sorted]
        refine ⟨Nat.zero_le _, (List.takeWhile_prefix _).length_le, ?_⟩
        apply List.filter_congr
        intro x member
        have beyond := behind x member
        rw [Bool.eq_iff_iff]
        simp
        omega
  rw [cutOut?, if_pos ⟨cut.1, cut.2.1⟩, cut.2.2]

theorem checkedPoint_eq (ix : LineIndex) (offset : Nat) :
    ix.checkedPoint offset = some (ix.point? offset) := by
  have reached : ix.starts.takeWhile (· < offset + 1) = ix.starts.takeWhile (· ≤ offset) := by
    simp only [Nat.lt_succ_iff]
  rw [checkedPoint, point?, countBefore, reached]
  cases count : (ix.starts.takeWhile (· ≤ offset)).length with
  | zero => simp [List.length_eq_zero_iff.mp count]
  | succ row =>
    have inside : row < (ix.starts.takeWhile (· ≤ offset)).length := by omega
    have early := List.mem_takeWhile_imp (List.getElem_mem inside)
    have found : ix.starts[row]? = some ((ix.starts.takeWhile (· ≤ offset))[row]) := by
      rw [(List.takeWhile_prefix _).getElem inside]
      exact List.getElem?_eq_getElem _
    have final : (ix.starts.takeWhile (· ≤ offset)).getLast? =
        some ((ix.starts.takeWhile (· ≤ offset))[row]) := by
      rw [List.getLast?_eq_getElem?, count]
      exact List.getElem?_eq_getElem inside
    simp only [found, final, Option.bind_eq_bind, Option.bind_some, Option.map_some]
    rw [difference?_eq (by simpa using early)]
    simp

end LineIndex

namespace Document

open LineIndex

def patchedLines? (lines : LineIndex) (replaced : Span) (newStop : Nat) (delta : Int)
    (left inserted right : Text) : Option LineIndex := do
  let first ← sum? replaced.start 1
  let last ← sum? replaced.stop 1
  let kept ← cutOut? lines.starts (countBefore lines.starts first) (countBefore lines.starts last)
  let moved ← shiftFrom? replaced.stop delta kept
  let inside ← startsBehind? 0 inserted
  let placed ← inside.mapM (sum? replaced.start)
  let own := placed.filter (· < newStop)
  let spliced := own.foldl (fun starts s => enter s starts) moved
  let before := startsBetween left.getLast? (inserted.head?.or right.head?)
  let behind := startsBetween (inserted.getLast?.or left.getLast?) right.head?
  some ⟨enter 0 (settle newStop behind (settle replaced.start before spliced))⟩

-- Nothing is computed of an edit that does not fit.
def edit? (d : Document) (e : Edit) : Option (Except Refusal (Document × Splice)) :=
  match d.locate? e with
  | none => some (.error (.invalidRange e.edited e.delta (Text.size e.inserted) d.size))
  | some (replaced, left, _, right) => do
    let startPoint ← d.lines.checkedPoint replaced.start
    let oldStopPoint ← d.lines.checkedPoint replaced.stop
    let newStop := e.edited.stop
    let lines ← patchedLines? d.lines replaced newStop e.delta left e.inserted right
    let newStopPoint ← lines.checkedPoint newStop
    some <|
      match startPoint, oldStopPoint, newStopPoint with
      | none, _, _ => .error (.noLineStart replaced.start)
      | _, none, _ => .error (.noLineStart replaced.stop)
      | _, _, none => .error (.noLineStart newStop)
      | some first, some second, some third =>
        .ok (⟨left ++ e.inserted ++ right, lines⟩,
          ⟨replaced.start, replaced.stop, newStop, first, second, third⟩)

variable {d : Document} {e : Edit} {left old inserted right : Text} {delta : Int}

theorem shiftFrom?_eq (grown : (Text.size left + Text.size old : Int) + delta =
      Text.size left + Text.size inserted)
    (held : Text.size (left ++ (old ++ right)) < 0x8000000000000000)
    (fits : Text.size inserted < 0x8000000000000000)
    {starts : List Nat} (within : ∀ s ∈ starts, s ≤ Text.size (left ++ (old ++ right))) :
    shiftFrom? (Text.size left + Text.size old) delta starts =
      some (shiftFrom (Text.size left + Text.size old) delta starts) := by
  apply mapM_eq
  intro s member
  have bound := within s member
  simp only [Text.size_append] at held bound
  split
  · refine if_pos ⟨by omega, ?_⟩
    rw [offsetLimit]
    omega
  · rfl

theorem placed_eq (held : Text.size left < 0x8000000000000000)
    (fits : Text.size inserted < 0x8000000000000000) :
    (startsBehind 0 inserted).mapM (sum? (Text.size left)) =
      some (startsBehind (Text.size left) inserted) := by
  rw [← Nat.add_zero (Text.size left), ← startsBehind_placed, Nat.add_zero]
  apply mapM_eq
  intro s member
  obtain ⟨front, back, -, rfl, rfl, -⟩ := mem_scanned.mp member
  rw [Text.size_append] at fits
  apply sum?_eq
  rw [offsetLimit]
  omega

theorem patchedLines?_eq (grown : (Text.size left + Text.size old : Int) + delta =
      Text.size left + Text.size inserted)
    (held : Text.size (left ++ (old ++ right)) < 0x8000000000000000)
    (fits : Text.size inserted < 0x8000000000000000) :
    patchedLines? (.ofText (left ++ (old ++ right)))
        ⟨Text.size left, Text.size left + Text.size old⟩ (Text.size left + Text.size inserted)
        delta left inserted right =
      some (patchedLines (.ofText (left ++ (old ++ right)))
        ⟨Text.size left, Text.size left + Text.size old⟩ (Text.size left + Text.size inserted)
        delta left inserted right) := by
  have sizes := held
  simp only [Text.size_append] at sizes
  have first : sum? (Text.size left) 1 = some (Text.size left + 1) :=
    sum?_eq (by rw [offsetLimit]; omega)
  have last : sum? (Text.size left + Text.size old) 1 =
      some (Text.size left + Text.size old + 1) := sum?_eq (by rw [offsetLimit]; omega)
  have kept := cutOut?_eq (ofText_sorted (left ++ (old ++ right)))
    (Nat.le_add_right (Text.size left) (Text.size old))
  have within : ∀ s ∈ (LineIndex.ofText (left ++ (old ++ right))).starts.filter
      (fun s => !(Text.size left < s && s ≤ Text.size left + Text.size old)),
      s ≤ Text.size (left ++ (old ++ right)) :=
    fun s member => startsAt_within (mem_ofText.mp (List.mem_filter.mp member).1)
  have moved := shiftFrom?_eq grown held fits within
  have inside : startsBehind? 0 inserted = some (startsBehind 0 inserted) :=
    startsBehind?_eq (by rw [offsetLimit]; omega)
  have placed : (startsBehind 0 inserted).mapM (sum? (Text.size left)) =
      some (startsBehind (Text.size left) inserted) := placed_eq (by omega) fits
  simp only [patchedLines?, first, last, kept, moved, inside, placed, Option.bind_eq_bind,
    Option.bind_some]
  rfl

theorem edit?_eq (agrees : d.InAgreement) (held : d.size < 0x8000000000000000) (fits : e.Storable) :
    d.edit? e = some (d.edit e) := by
  obtain ⟨text, lines⟩ := d
  change lines = .ofText text at agrees
  subst agrees
  cases found : locate? ⟨text, .ofText text⟩ e with
  | none => rw [edit?, edit, found]
  | some parts =>
    obtain ⟨replaced, left, old, right⟩ := parts
    obtain ⟨whole, rfl, range, edited⟩ := locate?_parts found
    dsimp only [size] at held whole
    subst whole
    have grown := growth fits range (by simp [edited, Span.length])
    have stop : e.edited.stop = Text.size left + Text.size e.inserted := congrArg Span.stop edited
    obtain ⟨first, startPoint⟩ := point?_ofText (left ++ (old ++ right)) (Text.size left)
    obtain ⟨second, oldStopPoint⟩ :=
      point?_ofText (left ++ (old ++ right)) (Text.size left + Text.size old)
    rw [edit?, edit, found]
    simp only [stop, patchedLines?_eq grown held fits, checkedPoint_eq, Option.bind_eq_bind,
      Option.bind_some, startPoint, oldStopPoint]
    split <;> simp_all

end Document

namespace Replacement

def carryOffset? (r : Replacement) (inside offset : Nat) : Option Nat :=
  if offset ≤ r.old.start then some offset
  else if r.old.stop ≤ offset then do
    let behind ← difference? offset r.old.stop
    sum? behind r.new.stop
  else some inside

def carry? (r : Replacement) (s : Span) : Option Span := do
  let start ← r.carryOffset? r.new.start s.start
  let stop ← r.carryOffset? r.new.stop s.stop
  some ⟨start, max stop start⟩

variable {r : Replacement} {s : Span}

theorem carryOffset?_eq (inside : Nat) {offset : Nat}
    (fits : offset - r.old.stop + r.new.stop < offsetLimit) :
    r.carryOffset? inside offset = some (r.carryOffset inside offset) := by
  unfold carryOffset? carryOffset
  split
  · rfl
  · split
    · rename_i behind
      rw [difference?_eq behind, Option.bind_eq_bind, Option.bind_some, sum?_eq fits]
    · rfl

theorem carry?_eq (start : s.start - r.old.stop + r.new.stop < offsetLimit)
    (stop : s.stop - r.old.stop + r.new.stop < offsetLimit) :
    r.carry? s = some (r.carry s) := by
  simp only [carry?, carryOffset?_eq _ start, carryOffset?_eq _ stop, Option.bind_eq_bind,
    Option.bind_some]
  rfl

end Replacement

def Affected.add? (a : Affected) (edited : Span) (delta : Int) : Option Affected := do
  let before ← distance? (signedLength edited.length) delta
  let stop ← sum? edited.start before.toNat
  let carried ← a.spans.spans.mapM (Replacement.carry? ⟨⟨edited.start, stop⟩, edited⟩)
  some ⟨(SpanSet.ofList carried).insert edited⟩

theorem Affected.add?_eq {a : Affected} {left old right : Text} {e : Edit}
    (range : e.replaced? = some ⟨Text.size left, Text.size left + Text.size old⟩)
    (edited : e.edited = ⟨Text.size left, Text.size left + Text.size e.inserted⟩)
    (held : Text.size (left ++ (old ++ right)) < 0x8000000000000000) (fits : e.Storable)
    (within : ∀ s ∈ a.spans.spans,
      s.start ≤ s.stop ∧ s.stop ≤ Text.size (left ++ (old ++ right))) :
    a.add? e.edited e.delta = some (a.add e.edited e.delta) := by
  obtain ⟨-, -, -, length⟩ := Edit.replaced?_parts range
  simp only [Span.length, Nat.add_sub_cancel_left] at length
  unfold Edit.Storable at fits
  simp only [Text.size_append] at held within
  have before : distance? (signedLength e.edited.length) e.delta = some (Text.size old : Int) := by
    rw [distance?, Span.length, ← length, if_pos (by omega)]
  have stop : sum? e.edited.start (Text.size old) = some (Text.size left + Text.size old) := by
    have start : e.edited.start = Text.size left := congrArg Span.start edited
    rw [start]
    exact sum?_eq (by rw [offsetLimit]; omega)
  have carried : a.spans.spans.mapM (Replacement.carry?
        ⟨⟨e.edited.start, Text.size left + Text.size old⟩, e.edited⟩) =
      some (a.spans.spans.map (Replacement.carry
        ⟨⟨e.edited.start, Text.size left + Text.size old⟩, e.edited⟩)) := by
    apply mapM_eq
    intro s member
    have bounds := within s member
    have ends : e.edited.stop = Text.size left + Text.size e.inserted := congrArg Span.stop edited
    apply Replacement.carry?_eq
    · dsimp only
      rw [ends, offsetLimit]
      omega
    · dsimp only
      rw [ends, offsetLimit]
      omega
  rw [Affected.add_exact range edited]
  simp only [add?, before, Int.toNat_natCast, stop, carried, Option.bind_eq_bind, Option.bind_some]
  rw [SpanSet.carry, edited]

namespace Session

variable {σ : Type} {s next : Session σ} {e : Edit} {t : Text}

def Bounded (s : Session σ) : Prop :=
  ∀ r ∈ s.affected.spans.spans, r.start ≤ r.stop ∧ r.stop ≤ Text.size s.text

theorem Tracks.bounded {base : Text} (tracks : s.Tracks base) : s.Bounded := by
  intro r member
  have inside := tracks.2.bounds r member
  rw [Nat.zero_add] at inside
  exact inside.2

variable [Layer σ]

def edit? (s : Session σ) (e : Edit) : Option (Except Refusal (Session σ)) := do
  match ← s.document.edit? e with
  | .error refusal => some (.error refusal)
  | .ok (document, splice) =>
    let affected ← s.affected.add? e.edited e.delta
    some (.ok { s with
      layer := Layer.edit s.layer splice
      document := document
      affected := affected
      lastIntake := .incremental })

def reload? (s : Session σ) (t : Text) : Option (Session σ) := do
  let lines ← LineIndex.ofText? t
  some { s with
    layer := Layer.load s.layer t
    document := ⟨t, lines⟩
    affected := .only ⟨0, Text.size t⟩
    lastIntake := .reloaded }

def follow? (s : Session σ) (e : Edit) (t : Text) : Option (Session σ) :=
  if s.text = t then some { s with lastIntake := .unchanged }
  else do
    match ← s.edit? e with
    | .ok next => if next.text = t then some next else next.reload? t
    | .error _ => s.reload? t

def overwrite? (s : Session σ) (t : Text) : Option (Session σ) :=
  if s.text = t then some { s with lastIntake := .unchanged }
  else do
    let delta ← distance? (signedLength (Text.size t)) (signedLength s.document.size)
    match ← s.edit? ⟨⟨0, Text.size t⟩, delta, t⟩ with
    | .ok next => some next
    | .error _ => s.reload? t

def catchUp? (s : Session σ) (t : Text) : Option (Session σ) :=
  if s.text = t then some s else s.reload? t

-- Beyond catching up, a pass compares offsets and computes none.
def pass? (s : Session σ) (t : Text) (wanted : Span) (cancelled : Cancellation) :
    Option (Session σ × Option Pass) := do
  let current ← s.catchUp? t
  some (current.pass t wanted cancelled)

theorem edit?_eq (agrees : s.Agrees) (bounded : s.Bounded)
    (held : Text.size s.text < 0x8000000000000000) (fits : e.Storable) :
    s.edit? e = some (s.edit e) := by
  rw [edit?, edit, Document.edit?_eq agrees held fits, Option.bind_eq_bind, Option.bind_some]
  cases taken : s.document.edit e with
  | error refusal => rfl
  | ok parts =>
    obtain ⟨document, splice⟩ := parts
    cases Document.edit_exact.mp taken with
    | splice whole range edited =>
      unfold Bounded text at bounded
      unfold text at held
      rw [whole] at bounded held
      have affected := Affected.add?_eq range edited held fits bounded
      simp only [affected, Option.bind_eq_bind, Option.bind_some]

theorem reload?_eq (s : Session σ) (fits : Text.size t < 0x8000000000000000) :
    s.reload? t = some (s.reload t) := by
  rw [reload?, LineIndex.ofText?_eq (by rw [offsetLimit]; omega)]
  rfl

theorem follow?_eq (agrees : s.Agrees) (bounded : s.Bounded)
    (held : Text.size s.text < 0x8000000000000000) (fits : e.Storable)
    (stored : Text.size t < 0x8000000000000000) :
    s.follow? e t = some (s.follow e t) := by
  unfold follow? follow
  split
  · rfl
  · rw [edit?_eq agrees bounded held fits, Option.bind_eq_bind, Option.bind_some]
    cases s.edit e with
    | error refusal => exact reload?_eq s stored
    | ok next =>
      dsimp only
      split
      · rfl
      · exact reload?_eq next stored

theorem overwrite?_eq (agrees : s.Agrees) (bounded : s.Bounded)
    (held : Text.size s.text < 0x8000000000000000) (stored : Text.size t < 0x8000000000000000) :
    s.overwrite? t = some (s.overwrite t) := by
  unfold overwrite? overwrite
  split
  · rfl
  · have delta : distance? (signedLength (Text.size t)) (signedLength s.document.size) =
        some (signedLength (Text.size t) - signedLength s.document.size) := by
      have present : signedLength s.document.size = s.document.size := signedLength_eq held
      have small : s.document.size < 0x8000000000000000 := held
      rw [present, signedLength_eq stored]
      exact if_pos (by omega)
    have whole : (⟨⟨0, Text.size t⟩, signedLength (Text.size t) - signedLength s.document.size, t⟩ :
        Edit) = .replace ⟨0, s.document.size⟩ t := by
      simp [Edit.replace, Span.length]
    rw [delta, Option.bind_eq_bind, Option.bind_some, whole,
      edit?_eq agrees bounded held (replace_storable _ stored), Option.bind_eq_bind,
      Option.bind_some]
    cases s.edit (.replace ⟨0, s.document.size⟩ t) with
    | error refusal => exact reload?_eq s stored
    | ok next => rfl

theorem pass_catchUp (s : Session σ) (t : Text) (wanted : Span) (cancelled : Cancellation) :
    (s.catchUp t).pass t wanted cancelled = s.pass t wanted cancelled := by
  cases cancelled <;> simp only [pass, catchUp_twice]

theorem catchUp?_eq (stored : Text.size t < 0x8000000000000000) :
    s.catchUp? t = some (s.catchUp t) := by
  unfold catchUp? catchUp
  split
  · rfl
  · exact reload?_eq s stored

theorem pass?_eq (stored : Text.size t < 0x8000000000000000) (wanted : Span)
    (cancelled : Cancellation) :
    s.pass? t wanted cancelled = some (s.pass t wanted cancelled) := by
  rw [pass?, catchUp?_eq stored, Option.bind_eq_bind, Option.bind_some, pass_catchUp]

end Session

end LiveHighlight
