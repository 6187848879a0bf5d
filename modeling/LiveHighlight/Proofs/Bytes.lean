import LiveHighlight.Proofs.LineStarts

-- The bytes of an encoded text. A byte that could be a line terminator is one: it is a character
-- of its own, so what two neighbouring bytes say of a line start is what the characters say.

namespace LiveHighlight

namespace Text

variable {t a b : Text} {c : Char} {x : UInt8} {n : Nat}

def bytes (t : Text) : List UInt8 := t.flatMap String.utf8EncodeChar

@[simp] theorem bytes_nil : bytes [] = [] := rfl

@[simp] theorem bytes_cons (c : Char) (t : Text) :
    bytes (c :: t) = String.utf8EncodeChar c ++ bytes t := rfl

@[simp] theorem bytes_append (a b : Text) : bytes (a ++ b) = bytes a ++ bytes b :=
  List.flatMap_append

@[simp] theorem length_bytes (t : Text) : (bytes t).length = size t := by
  induction t with
  | nil => rfl
  | cons c rest ih => simp [ih, String.length_utf8EncodeChar]

theorem take_bytes (a b : Text) : (bytes (a ++ b)).take (size a) = bytes a := by
  rw [bytes_append, ← length_bytes, List.take_left]

theorem drop_bytes (a b : Text) : (bytes (a ++ b)).drop (size a) = bytes b := by
  rw [bytes_append, ← length_bytes, List.drop_left]

theorem encode_small (member : x ∈ String.utf8EncodeChar c) (small : x.toNat < 128) :
    String.utf8EncodeChar c = [x] ∧ c = Char.ofNat x.toNat := by
  unfold String.utf8EncodeChar at member ⊢
  dsimp only at member ⊢
  split at member
  · rename_i single
    rw [if_pos single]
    obtain rfl := List.mem_singleton.mp member
    have same : (UInt8.ofNat c.val.toNat).toNat = c.toNat := by
      rw [UInt8.toNat_ofNat']
      exact Nat.mod_eq_of_lt (by omega)
    exact ⟨rfl, by rw [same, Char.ofNat_toNat]⟩
  · exfalso
    have high : ∀ k, k < 256 → 128 ≤ k → x = UInt8.ofNat k → False := by
      rintro k fits high rfl
      rw [UInt8.toNat_ofNat', Nat.mod_eq_of_lt fits] at small
      omega
    split at member
    · simp only [List.mem_cons, List.not_mem_nil, or_false] at member
      rcases member with same | same <;> exact high _ (by omega) (by omega) same
    · split at member
      · simp only [List.mem_cons, List.not_mem_nil, or_false] at member
        rcases member with same | same | same <;> exact high _ (by omega) (by omega) same
      · simp only [List.mem_cons, List.not_mem_nil, or_false] at member
        rcases member with same | same | same | same <;> exact high _ (by omega) (by omega) same

theorem encode_ascii (small : x.toNat < 128) :
    String.utf8EncodeChar (Char.ofNat x.toNat) = [x] := by
  have valid : x.toNat.isValidChar := .inl (by omega)
  have same : (Char.ofNat x.toNat).val.toNat = x.toNat := by
    rw [Char.ofNat, dif_pos valid]
    rfl
  unfold String.utf8EncodeChar
  dsimp only
  rw [if_pos (by omega), same, UInt8.ofNat_toNat]

theorem getLast?_bytes (small : x.toNat < 128) :
    (bytes t).getLast? = some x ↔ t.getLast? = some (Char.ofNat x.toNat) := by
  rcases List.eq_nil_or_concat t with rfl | ⟨front, c, rfl⟩
  · simp
  · rw [List.concat_eq_append, bytes_append, bytes_cons, bytes_nil, List.append_nil,
      List.getLast?_append_of_ne_nil _ (String.utf8EncodeChar_ne_nil), List.getLast?_concat,
      Option.some.injEq]
    constructor
    · intro last
      exact (encode_small (List.mem_of_getLast? last) small).2
    · rintro rfl
      rw [encode_ascii small]
      rfl

theorem head?_bytes (small : x.toNat < 128) :
    (bytes t).head? = some x ↔ t.head? = some (Char.ofNat x.toNat) := by
  cases t with
  | nil => simp
  | cons c rest =>
    rw [bytes_cons, List.head?_append_of_ne_nil _ (String.utf8EncodeChar_ne_nil), List.head?_cons,
      Option.some.injEq]
    constructor
    · intro first
      exact (encode_small (List.mem_of_head? first) small).2
    · rintro rfl
      rw [encode_ascii small]
      rfl

theorem bytes_at (at_n : (bytes t)[n]? = some x) (small : x.toNat < 128) :
    ∃ left right, t = left ++ Char.ofNat x.toNat :: right ∧ size left = n := by
  induction t generalizing n with
  | nil => simp at at_n
  | cons c rest ih =>
    rw [bytes_cons] at at_n
    rcases Nat.lt_or_ge n c.utf8Size with inside | behind
    · rw [List.getElem?_append_left (by rwa [String.length_utf8EncodeChar])] at at_n
      obtain ⟨single, rfl⟩ := encode_small (List.mem_of_getElem? at_n) small
      have size := congrArg List.length single
      rw [String.length_utf8EncodeChar, List.length_singleton] at size
      exact ⟨[], rest, rfl, by rw [size_nil]; omega⟩
    · rw [List.getElem?_append_right (by rwa [String.length_utf8EncodeChar]),
        String.length_utf8EncodeChar] at at_n
      obtain ⟨left, right, rfl, place⟩ := ih at_n
      exact ⟨c :: left, right, rfl, by rw [size_cons]; omega⟩

end Text

namespace LineIndex

variable {t left right : Text} {n : Nat}

def startsBetweenBytes (before behind : Option UInt8) : Bool :=
  match before with
  | none => true
  | some 10 => true
  | some 13 => behind != some 10
  | some _ => false

theorem startsBetween_bytes (left right : Text) :
    startsBetweenBytes (Text.bytes left).getLast? (Text.bytes right).head? =
      startsBetween left.getLast? right.head? := by
  have feed : (Text.bytes left).getLast? = some 10 ↔ left.getLast? = some '\n' :=
    Text.getLast?_bytes (x := 10) (by decide)
  have carriage : (Text.bytes left).getLast? = some 13 ↔ left.getLast? = some '\r' :=
    Text.getLast?_bytes (x := 13) (by decide)
  have next : (Text.bytes right).head? = some 10 ↔ right.head? = some '\n' :=
    Text.head?_bytes (x := 10) (by decide)
  have nothing : (Text.bytes left).getLast? = none ↔ left.getLast? = none := by
    rw [List.getLast?_eq_none_iff, List.getLast?_eq_none_iff, ← List.length_eq_zero_iff,
      Text.length_bytes, Text.size_eq_zero]
  cases last : left.getLast? with
  | none =>
    rw [nothing.mpr last]
    rfl
  | some c =>
    by_cases is_feed : c = '\n'
    · subst is_feed
      rw [feed.mpr last]
      rfl
    · by_cases is_carriage : c = '\r'
      · subst is_carriage
        rw [carriage.mpr last]
        rw [startsBetweenBytes, startsBetween, Bool.eq_iff_iff, bne_iff_ne, bne_iff_ne]
        exact next.not
      · have other : startsBetween (some c) right.head? = false := by
          unfold startsBetween
          split <;> simp_all
        rw [last, Option.some.injEq] at feed carriage
        rw [last] at nothing
        rw [other]
        unfold startsBetweenBytes
        split
        · simp_all
        · simp_all
        · simp_all
        · rfl

-- At every offset of a text, inside of a character too, the two bytes beside it decide.
theorem startsAt_bytes (within : n ≤ Text.size t) : StartsAt t n ↔
    startsBetweenBytes ((Text.bytes t).take n).getLast? ((Text.bytes t).drop n).head? = true := by
  constructor
  · rintro ⟨left, right, rfl, rfl, starts⟩
    rwa [Text.take_bytes, Text.drop_bytes, startsBetween_bytes]
  · intro starts
    have whole : ∀ left right, t = left ++ right → Text.size left = n → StartsAt t n := by
      rintro left right rfl rfl
      rw [Text.take_bytes, Text.drop_bytes, startsBetween_bytes] at starts
      exact ⟨left, right, rfl, rfl, starts⟩
    have behind : ∀ x : UInt8, x.toNat < 128 → ((Text.bytes t).take n).getLast? = some x →
        StartsAt t n := by
      intro x small last
      obtain ⟨front, parts⟩ := List.getLast?_eq_some_iff.mp last
      have length := congrArg List.length parts
      rw [List.length_take_of_le (by rwa [Text.length_bytes]), List.length_append,
        List.length_singleton] at length
      have at_front : (Text.bytes t)[front.length]? = some x := by
        rw [← List.take_append_drop n (Text.bytes t), parts, List.append_assoc,
          List.getElem?_append_right (Nat.le_refl _), Nat.sub_self]
        rfl
      obtain ⟨left, right, parts, place⟩ := Text.bytes_at at_front small
      have single := congrArg List.length (Text.encode_ascii small)
      rw [String.length_utf8EncodeChar, List.length_singleton] at single
      refine whole (left ++ [Char.ofNat x.toNat]) right (by rw [parts, List.append_assoc]; rfl) ?_
      rw [Text.size_append, Text.size_cons, single, Text.size_nil, place, length]
    unfold startsBetweenBytes at starts
    split at starts
    · rename_i nothing
      rw [List.getLast?_eq_none_iff, List.take_eq_nil_iff] at nothing
      rcases nothing with rfl | empty
      · exact startsAt_zero t
      · rw [← List.length_eq_zero_iff, Text.length_bytes] at empty
        rw [show n = 0 by omega]
        exact startsAt_zero t
    · exact behind 10 (by decide) ‹_›
    · exact behind 13 (by decide) ‹_›
    · cases starts

end LineIndex

end LiveHighlight
