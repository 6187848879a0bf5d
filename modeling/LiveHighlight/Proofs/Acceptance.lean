import LiveHighlight.Proofs.FixedWidth

-- Which edits a document takes. Beside the condition stands the edit as it goes on in place, where
-- a step that fails halfway would leave the index patched over the old text.

namespace LiveHighlight

namespace Text

variable {t : Text} {n m : Nat}

-- An offset at an end of the text or between two of its characters.
def Boundary (t : Text) (n : Nat) : Prop := ∃ left right, t = left ++ right ∧ size left = n

theorem boundary_iff : Boundary t n ↔ (cut? t n).isSome = true := by
  constructor
  · rintro ⟨left, right, rfl, rfl⟩
    simp [cut?_append]
  · intro found
    obtain ⟨⟨left, right⟩, halves⟩ := Option.isSome_iff_exists.mp found
    obtain ⟨whole, place⟩ := cut?_parts halves
    exact ⟨left, right, whole, place⟩

instance (t : Text) (n : Nat) : Decidable (Boundary t n) := decidable_of_iff _ boundary_iff.symm

theorem Boundary.within (place : Boundary t n) : n ≤ size t := by
  obtain ⟨left, right, rfl, rfl⟩ := place
  rw [size_append]
  exact Nat.le_add_right _ _

theorem boundaries_parts (first : Boundary t n) (last : Boundary t m) (ordered : n ≤ m) :
    ∃ left middle right, t = left ++ (middle ++ right) ∧ size left = n ∧
      size left + size middle = m := by
  obtain ⟨left, rest, whole, rfl⟩ := first
  obtain ⟨front, right, same, rfl⟩ := last
  rw [whole] at same
  obtain ⟨middle, rfl, rfl⟩ := halves_of_le same ordered
  exact ⟨left, middle, right, whole, rfl, (size_append _ _).symm⟩

end Text

namespace Edit

variable {e : Edit} {t left old right : Text} {r : Span}

def replacedCount (e : Edit) : Int := (e.edited.stop - e.edited.start : Int) - e.delta

-- An edit that can have happened to the text.
structure Suits (e : Edit) (t : Text) : Prop where
  ordered : e.edited.start ≤ e.edited.stop
  length : (Text.size e.inserted : Int) = e.edited.stop - e.edited.start
  counted : 0 ≤ e.replacedCount
  inside : e.edited.start + e.replacedCount ≤ Text.size t
  starts : Text.Boundary t e.edited.start
  stops : Text.Boundary t (e.edited.start + e.replacedCount.toNat)

instance (e : Edit) (t : Text) : Decidable (e.Suits t) :=
  decidable_of_iff
    (e.edited.start ≤ e.edited.stop ∧
      (Text.size e.inserted : Int) = e.edited.stop - e.edited.start ∧ 0 ≤ e.replacedCount ∧
      e.edited.start + e.replacedCount ≤ Text.size t ∧ Text.Boundary t e.edited.start ∧
      Text.Boundary t (e.edited.start + e.replacedCount.toNat))
    ⟨fun ⟨a, b, c, d, e, f⟩ => ⟨a, b, c, d, e, f⟩, fun ⟨a, b, c, d, e, f⟩ => ⟨a, b, c, d, e, f⟩⟩

theorem suits_parts (suits : e.Suits t) :
    ∃ left old right, t = left ++ (old ++ right) ∧ Text.size left = e.edited.start ∧
      (Text.size old : Int) = e.replacedCount := by
  have counted := suits.counted
  obtain ⟨left, old, right, whole, start, stop⟩ :=
    Text.boundaries_parts suits.starts suits.stops (Nat.le_add_right _ _)
  exact ⟨left, old, right, whole, start, by omega⟩

theorem suits_replaced (suits : e.Suits t) (held : Text.size t < 0x8000000000000000)
    (fits : e.Storable) :
    e.replaced? = some ⟨e.edited.start, e.edited.start + e.replacedCount.toNat⟩ := by
  obtain ⟨ordered, length, counted, inside, -, -⟩ := suits
  unfold Storable at fits
  have small : e.edited.length < 0x8000000000000000 := by
    simp only [Span.length]
    omega
  have before : signedLength e.edited.length - e.delta = e.replacedCount := by
    rw [signedLength_eq small, replacedCount, Span.length, Int.ofNat_sub ordered]
  have bounds : 0 ≤ e.replacedCount ∧ e.replacedCount < 0x8000000000000000 ∧
      e.edited.start + e.replacedCount.toNat < offsetLimit := by
    rw [offsetLimit]
    omega
  rw [replaced?, if_neg (by omega)]
  dsimp only
  rw [before, if_pos bounds]

theorem suits_of (edited : e.edited = ⟨Text.size left, Text.size left + Text.size e.inserted⟩)
    (range : e.replaced? = some ⟨Text.size left, Text.size left + Text.size old⟩)
    (fits : e.Storable) : e.Suits (left ++ (old ++ right)) := by
  obtain ⟨-, -, -, lengths⟩ := replaced?_parts range
  have start : e.edited.start = Text.size left := congrArg Span.start edited
  have stop : e.edited.stop = Text.size left + Text.size e.inserted := congrArg Span.stop edited
  have count : e.replacedCount = Text.size old := by
    have length : e.edited.length = Text.size e.inserted := by simp [Span.length, start, stop]
    rw [length, signedLength_eq fits] at lengths
    simp only [Span.length] at lengths
    rw [replacedCount, start, stop]
    omega
  refine ⟨by omega, by omega, by omega, ?_, ⟨left, old ++ right, rfl, start.symm⟩,
    ⟨left ++ old, right, by simp, ?_⟩⟩
  · simp only [Text.size_append]
    omega
  · simp only [Text.size_append]
    omega

-- The constructors on numbers of a fixed width.

def insert? (offset : Nat) (t : Text) : Option Edit := do
  let stop ← Width.sum? offset (Text.size t)
  some ⟨⟨offset, stop⟩, signedLength (Text.size t), t⟩

def delete? (offset len : Nat) : Option Edit := do
  let delta ← Width.distance? 0 (signedLength len)
  some ⟨⟨offset, offset⟩, delta, []⟩

def replace? (replaced : Span) (t : Text) : Option Edit := do
  let stop ← Width.sum? replaced.start (Text.size t)
  let delta ← Width.distance? (signedLength (Text.size t)) (signedLength replaced.length)
  some ⟨⟨replaced.start, stop⟩, delta, t⟩

theorem insert?_eq {offset : Nat} (within : offset < 0x8000000000000000)
    (stored : Text.size t < 0x8000000000000000) : insert? offset t = some (insert offset t) := by
  rw [insert?, Width.sum?_eq (by rw [offsetLimit]; omega)]
  rfl

theorem delete?_eq {offset len : Nat} (within : len < 0x8000000000000000) :
    delete? offset len = some (delete offset len) := by
  have delta : Width.distance? 0 (signedLength len) = some (0 - signedLength len) := by
    rw [signedLength_eq within]
    exact if_pos (by omega)
  rw [delete?, delta, Int.zero_sub]
  rfl

theorem replace?_eq (starts : r.start < 0x8000000000000000)
    (within : r.length < 0x8000000000000000) (stored : Text.size t < 0x8000000000000000) :
    replace? r t = some (replace r t) := by
  have delta : Width.distance? (signedLength (Text.size t)) (signedLength r.length) =
      some (signedLength (Text.size t) - signedLength r.length) := by
    rw [signedLength_eq within, signedLength_eq stored]
    exact if_pos (by omega)
  rw [replace?, Width.sum?_eq (by rw [offsetLimit]; omega), delta]
  rfl

-- An insertion replaces nothing, a deletion replaces by nothing.

theorem insert_replaces (offset : Nat) (t : Text) : insert offset t = replace ⟨offset, offset⟩ t := by
  simp [insert, replace, Span.length, signedLength]

theorem delete_replaces (r : Span) : delete r.start r.length = replace r [] := by
  simp [delete, replace, signedLength]

theorem replace_count (within : r.length < 0x8000000000000000)
    (stored : Text.size t < 0x8000000000000000) : (replace r t).replacedCount = r.length := by
  simp only [replacedCount, replace, signedLength_eq within, signedLength_eq stored]
  omega

theorem replace_suits {text : Text} (ordered : r.start ≤ r.stop)
    (held : Text.size text < 0x8000000000000000) (stored : Text.size t < 0x8000000000000000)
    (first : Text.Boundary text r.start) (last : Text.Boundary text r.stop) :
    (replace r t).Suits text := by
  have bound := last.within
  have within : r.length < 0x8000000000000000 := by
    simp only [Span.length]
    omega
  have count := replace_count within stored
  have stop : r.start + r.length = r.stop := by
    simp only [Span.length]
    omega
  refine ⟨?_, ?_, ?_, ?_, first, ?_⟩
  · simp [replace]
  · simp only [replace]
    omega
  · simp [count]
  · rw [count]
    simp only [replace]
    omega
  · rw [count, Int.toNat_natCast]
    simpa only [replace, stop] using last

end Edit

namespace Document

variable {d next : Document} {e : Edit} {splice : Splice} {t : Text} {r : Span}

-- The edit in place: the index is patched while the text is still the old one, and if the last
-- point cannot be told it is read anew from that.
def alter? (d : Document) (e : Edit) : Option (Document × Except Refusal Splice) :=
  match d.locate? e with
  | none => some (d, .error (.invalidRange e.edited e.delta (Text.size e.inserted) d.size))
  | some (replaced, left, _, right) => do
    match ← d.lines.checkedPoint replaced.start with
    | none => some (d, .error (.noLineStart replaced.start))
    | some startPoint =>
      match ← d.lines.checkedPoint replaced.stop with
      | none => some (d, .error (.noLineStart replaced.stop))
      | some oldStopPoint =>
        let newStop := e.edited.stop
        let lines ← patchedLines? d.lines replaced newStop e.delta left e.inserted right
        match ← lines.checkedPoint newStop with
        | none =>
          let again ← LineIndex.ofText? d.text
          some (⟨d.text, again⟩, .error (.noLineStart newStop))
        | some newStopPoint =>
          some (⟨left ++ e.inserted ++ right, lines⟩,
            .ok ⟨replaced.start, replaced.stop, newStop, startPoint, oldStopPoint, newStopPoint⟩)

theorem alter?_eq (agrees : d.InAgreement) (held : d.size < 0x8000000000000000)
    (fits : e.Storable) : d.alter? e = some (d.take e, (d.edit e).map (·.2)) := by
  obtain ⟨text, lines⟩ := d
  change lines = .ofText text at agrees
  subst agrees
  cases found : locate? ⟨text, .ofText text⟩ e with
  | none =>
    rw [alter?, take, edit, found]
    rfl
  | some parts =>
    obtain ⟨replaced, left, old, right⟩ := parts
    obtain ⟨whole, rfl, range, edited⟩ := locate?_parts found
    dsimp only [size] at held whole
    subst whole
    have grown := growth fits range (by simp [edited, Span.length])
    have stop : e.edited.stop = Text.size left + Text.size e.inserted := congrArg Span.stop edited
    obtain ⟨first, startPoint⟩ := point?_ofText (left ++ (old ++ right)) (Text.size left)
    obtain ⟨second, oldStopPoint⟩ :=
      point?_ofText (left ++ (old ++ right)) (Text.size left + Text.size old)
    obtain ⟨third, newStopPoint⟩ := point?_ofText (left ++ (e.inserted ++ right))
      (Text.size left + Text.size e.inserted)
    rw [← patched_exact grown] at newStopPoint
    rw [alter?, take, edit, found]
    simp only [stop, patchedLines?_eq grown held fits, LineIndex.checkedPoint_eq,
      Option.bind_eq_bind, Option.bind_some, startPoint, oldStopPoint, newStopPoint]
    rfl

theorem takes_suits (fits : e.Storable) (taken : Takes d e next splice) : e.Suits d.text := by
  cases taken with
  | splice whole range edited =>
    rw [whole]
    exact Edit.suits_of edited range fits

theorem takes_replacement (taken : Takes d e next splice) :
    e.replaced? = some splice.replacement.old ∧ splice.replacement.new = e.edited := by
  cases taken with
  | splice whole range edited => exact ⟨range, edited.symm⟩

-- The document takes an edit as a splice of one span of its text by another text.
def Splices (d : Document) (r : Span) (t : Text) (e : Edit) : Prop :=
  ∃ left old right splice, d.text = left ++ (old ++ right) ∧
    r = ⟨Text.size left, Text.size left + Text.size old⟩ ∧
    d.edit e = .ok (.ofText (left ++ (t ++ right)), splice) ∧
    splice.replacement = ⟨r, ⟨r.start, r.start + Text.size t⟩⟩

theorem suits_splices (agrees : d.InAgreement) (held : d.size < 0x8000000000000000)
    (fits : e.Storable) (suits : e.Suits d.text) :
    d.Splices ⟨e.edited.start, e.edited.start + e.replacedCount.toNat⟩ e.inserted e := by
  obtain ⟨left, old, right, whole, start, count⟩ := Edit.suits_parts suits
  have range := Edit.suits_replaced suits held fits
  have place : (⟨e.edited.start, e.edited.start + e.replacedCount.toNat⟩ : Span) =
      ⟨Text.size left, Text.size left + Text.size old⟩ := by
    rw [Span.mk.injEq]
    omega
  have edited : e.edited = ⟨e.edited.start, e.edited.start + Text.size e.inserted⟩ := by
    have length := suits.length
    have stop : e.edited.stop = e.edited.start + Text.size e.inserted := by omega
    rw [← stop]
  have length : Text.size e.inserted = e.edited.length := by
    rw [edited]
    simp [Span.length]
  have turns : e.Turns d.text (left ++ (e.inserted ++ right)) := by
    rw [whole]
    exact .splice left old right (by rw [range, place])
  obtain ⟨splice, accepted⟩ := edit_accepts agrees fits length turns
  obtain ⟨replaced, inserted⟩ := takes_replacement (edit_exact.mp accepted)
  have ends : splice.replacement = ⟨splice.replacement.old, splice.replacement.new⟩ := rfl
  refine ⟨left, old, right, splice, whole, place, accepted, ?_⟩
  rw [ends, Replacement.mk.injEq]
  exact ⟨Option.some.inj (replaced.symm.trans range), inserted.trans edited⟩

theorem replace_splices (agrees : d.InAgreement) (held : d.size < 0x8000000000000000)
    (stored : Text.size t < 0x8000000000000000) (ordered : r.start ≤ r.stop)
    (first : Text.Boundary d.text r.start) (last : Text.Boundary d.text r.stop) :
    d.Splices r t (.replace r t) := by
  have bound := last.within
  have small : d.size = Text.size d.text := rfl
  have within : r.length < 0x8000000000000000 := by
    simp only [Span.length]
    omega
  have count := Edit.replace_count within stored
  have splices := suits_splices agrees held (e := .replace r t) stored
    (Edit.replace_suits ordered held stored first last)
  have stop : r.start + r.length = r.stop := by
    simp only [Span.length]
    omega
  rw [count, Int.toNat_natCast] at splices
  simpa only [Edit.replace, stop] using splices

theorem unsuited_refused (unsuited : ¬ e.Suits d.text) (fits : e.Storable) :
    d.edit e = .error (.invalidRange e.edited e.delta (Text.size e.inserted) d.size) := by
  cases found : d.locate? e with
  | none => rw [edit, found]
  | some parts =>
    obtain ⟨replaced, left, old, right⟩ := parts
    obtain ⟨whole, rfl, range, edited⟩ := locate?_parts found
    rw [whole] at unsuited
    exact absurd (Edit.suits_of edited range fits) unsuited

-- A document takes an edit exactly if the edit suits its text, and refuses any other as out of
-- range with text and lines as they were. In place too, no sum, difference or cut fails.
theorem edit_decided (d : Document) (e : Edit) (agrees : d.InAgreement)
    (held : d.size < 0x8000000000000000) (fits : e.Storable) :
    d.alter? e = some (d.take e, (d.edit e).map (·.2)) ∧
      ((∃ next splice, d.edit e = .ok (next, splice)) ↔ e.Suits d.text) ∧
      (¬ e.Suits d.text →
        d.edit e = .error (.invalidRange e.edited e.delta (Text.size e.inserted) d.size) ∧
          d.take e = d) ∧
      (∀ offset, d.edit e ≠ .error (.noLineStart offset)) ∧
      ∀ r t, r.start ≤ r.stop → Text.Boundary d.text r.start → Text.Boundary d.text r.stop →
        Text.size t < 0x8000000000000000 →
        (Edit.replace? r t = some (.replace r t) ∧ d.Splices r t (.replace r t)) ∧
          (Edit.insert? r.start t = some (.insert r.start t) ∧
            d.Splices ⟨r.start, r.start⟩ t (.insert r.start t)) ∧
          (Edit.delete? r.start r.length = some (.delete r.start r.length) ∧
            d.Splices r [] (.delete r.start r.length)) := by
  have accepted (suits : e.Suits d.text) : ∃ next splice, d.edit e = .ok (next, splice) := by
    obtain ⟨left, old, right, splice, -, -, taken, -⟩ := suits_splices agrees held fits suits
    exact ⟨_, splice, taken⟩
  refine ⟨alter?_eq agrees held fits, ⟨?_, accepted⟩, ?_, ?_, ?_⟩
  · rintro ⟨next, splice, taken⟩
    exact takes_suits fits (edit_exact.mp taken)
  · intro unsuited
    have refused := unsuited_refused unsuited fits
    exact ⟨refused, by simp [take, refused]⟩
  · intro offset refused
    by_cases suits : e.Suits d.text
    · obtain ⟨next, splice, taken⟩ := accepted suits
      rw [taken] at refused
      cases refused
    · rw [unsuited_refused suits fits] at refused
      cases refused
  · intro r t ordered first last stored
    have bound := last.within
    have small : d.size = Text.size d.text := rfl
    have within : r.length < 0x8000000000000000 := by
      simp only [Span.length]
      omega
    refine ⟨⟨Edit.replace?_eq (by omega) within stored, ?_⟩,
      ⟨Edit.insert?_eq (by omega) stored, ?_⟩, ⟨Edit.delete?_eq within, ?_⟩⟩
    · exact replace_splices agrees held stored ordered first last
    · rw [Edit.insert_replaces]
      exact replace_splices agrees held stored (Nat.le_refl _) first first
    · rw [Edit.delete_replaces]
      exact replace_splices agrees held (by decide) ordered first last

theorem edit_decided_inside :
    (ofText ['é', '\n']).InAgreement ∧ (⟨⟨1, 2⟩, 1, ['x']⟩ : Edit).Storable ∧
      (ofText ['é', '\n']).edit ⟨⟨1, 2⟩, 1, ['x']⟩ = .error (.invalidRange ⟨1, 2⟩ 1 1 3) ∧
      (ofText ['é', '\n']).Splices ⟨2, 2⟩ ['x'] (.insert 2 ['x']) := by
  have agrees : (ofText ['é', '\n']).InAgreement := rfl
  have fits : (⟨⟨1, 2⟩, 1, ['x']⟩ : Edit).Storable := (by decide : 1 < 0x8000000000000000)
  obtain ⟨-, -, refuses, -, takes⟩ :=
    edit_decided (ofText ['é', '\n']) ⟨⟨1, 2⟩, 1, ['x']⟩ agrees (by decide) fits
  obtain ⟨-, ⟨-, inserted⟩, -⟩ :=
    takes ⟨2, 2⟩ ['x'] (Nat.le_refl _) (by decide) (by decide) (by decide)
  exact ⟨agrees, fits, (refuses (by decide)).1, inserted⟩

end Document

end LiveHighlight
