import Mathlib.Data.List.Nodup
import LiveHighlight.Proofs.Parting
import LiveHighlight.Proofs.WholeWords

-- Every word has a text in which it is found exactly if it is listed. Where its own character makes
-- no boundary, digits go on there, more of them than any listed word has bytes.

namespace LiveHighlight.Rules.Finder

open Pattern (Look)

variable {v w z : Text} {l words : List Text} {c d : Cursor} {n : Nat} {x : Char} {y : Option Char}

def digits (n : Nat) : Text := List.replicate n '0'

theorem digits_size (n : Nat) : Text.size (digits n) = n := by
  induction n with
  | zero => rfl
  | succ n ih =>
    change Text.size ('0' :: digits n) = n + 1
    rw [Text.size_cons, ih, Nat.add_comm]
    rfl

theorem digit_word : isWordChar '0' = true ∧ Pattern.isWordAt (some '0') = true := by decide

-- What stands beside an end of a word so that there is a boundary where one is asked for.
def guard (n : Nat) (y : Option Char) : Text :=
  if y.any isWordChar && !Pattern.isWordAt y then digits n else []

def guarded (n : Nat) (w : Text) : Text := guard n w.head? ++ (w ++ guard n w.getLast?)

theorem guard_digit (member : x ∈ guard n y) : x = '0' := by
  unfold guard at member
  split at member
  · exact List.eq_of_mem_replicate member
  · cases member

theorem guard_size (held : guard n y ≠ []) : Text.size (guard n y) = n := by
  unfold guard at held ⊢
  split
  · exact digits_size n
  · rename_i unguarded
    rw [if_neg unguarded] at held
    exact absurd rfl held

theorem guard_breaks (some_digits : 0 < n) (asked : y.any isWordChar = true) :
    Pattern.isWordAt (guard n y).head? = !Pattern.isWordAt y := by
  obtain ⟨n, rfl⟩ := Nat.exists_eq_succ_of_ne_zero (Nat.ne_of_gt some_digits)
  unfold guard
  rw [asked, Bool.true_and]
  cases Pattern.isWordAt y with
  | true => rfl
  | false => exact digit_word.2

def front (n : Nat) (w : Text) : Cursor := .between (guard n w.head?) (w ++ guard n w.getLast?)

def back (n : Nat) (w : Text) : Cursor := (front n w).past w (guard n w.getLast?)

theorem front_before (n : Nat) (w : Text) : (front n w).before = guard n w.head? := by
  unfold front Cursor.between guard
  split
  · exact List.reverse_replicate
  · rfl

theorem guarded_taken (held : w ≠ []) (some_digits : 0 < n) :
    wordWay false w (front n w) = some (back n w) := by
  have first : (front n w).rest.head? = w.head? := List.head?_append_of_ne_nil _ held
  have last : (back n w).before.head? = w.getLast? := by
    rw [back, Cursor.past, List.head?_append_of_ne_nil _ (by simpa using held), List.head?_reverse]
  refine wordWay_exact.mpr ⟨rfl, rfl, fun asked => ?_, fun asked => ?_⟩
  · simp only [Look.boundary_holds, front_before, first, guard_breaks some_digits asked]
    cases Pattern.isWordAt w.head? <;> rfl
  · have behind : (back n w).rest = guard n w.getLast? := rfl
    simp only [Look.boundary_holds, behind, last, guard_breaks some_digits asked]
    cases Pattern.isWordAt w.getLast? <;> rfl

theorem taken_ends (taken : wordWay false v c = some d) (last : v.getLast? = some '0') :
    d.rest.head? ≠ some '0' := by
  intro digit
  obtain ⟨-, before, -, ends⟩ := wordWay_exact.mp taken
  have held : v ≠ [] := by
    rintro rfl
    cases last
  have broken := ends (by rw [last]; exact digit_word.1)
  rw [Look.boundary_holds, before, List.head?_append_of_ne_nil _ (by simpa using held), List.head?_reverse,
    last, digit] at broken
  simp at broken

theorem taken_starts (taken : wordWay false v c = some d) (first : v.head? = some '0') :
    c.before.head? ≠ some '0' := by
  intro digit
  obtain ⟨rest, -, starts, -⟩ := wordWay_exact.mp taken
  have held : v ≠ [] := by
    rintro rfl
    cases first
  have broken := starts (by rw [first]; exact digit_word.1)
  rw [Look.boundary_holds, rest, List.head?_append_of_ne_nil _ held, first, digit] at broken
  simp at broken

theorem guarded_only (small : Text.size v < n) (taken : wordWay false v (front n w) = some d)
    (longer : Text.size w ≤ Text.size v) : v = w := by
  have rest : w ++ guard n w.getLast? = v ++ d.rest := (wordWay_exact.mp taken).1
  obtain ⟨more, rfl, behind⟩ := Text.halves_of_le rest longer
  rcases List.eq_nil_or_concat' more with rfl | ⟨inner, x, rfl⟩
  · exact List.append_nil w
  · exfalso
    have listed : ∀ z ∈ inner ++ [x] ++ d.rest, z = '0' := fun z member =>
      guard_digit (behind ▸ member)
    have whole := guard_size (n := n) (y := w.getLast?) (by rw [behind]; simp)
    rw [behind, Text.size_append] at whole
    rw [Text.size_append] at small
    cases listed x (by simp)
    cases ends : d.rest with
    | nil =>
      rw [ends, Text.size_nil] at whole
      omega
    | cons z others =>
      cases listed z (by simp [ends])
      exact taken_ends taken (by simp) (by rw [ends]; rfl)

theorem guarded_kept {e : Cursor} {k : List Span} (held : ∀ v ∈ l, v ≠ [])
    (small : ∀ v ∈ l, Text.size v < n) (leads : c.Leads (fun _ => True) (front n w))
    (jumps : (wordsPattern l).stride c = .jump e k) (ahead : c.offset < (front n w).offset) :
    e.offset ≤ (front n w).offset := by
  obtain ⟨m, found, -, rfl, -⟩ := Pattern.stride_jump.mp jumps
  obtain ⟨v, listed, taken⟩ := words_taken found
  obtain ⟨u, -, rest, before⟩ := leads
  rw [c.offset_eq, (front n w).offset_eq, before, Text.size_append, Text.size_reverse] at ahead
  rw [front_before] at before
  have all : ∀ z ∈ u.reverse ++ c.before, z = '0' := fun z member =>
    guard_digit (before ▸ member)
  cases u with
  | nil => exact absurd ahead (by simp)
  | cons x u =>
    have first : v.head? = some '0' := by
      have same := congrArg List.head? ((wordWay_exact.mp taken).1.symm.trans rest)
      rwa [List.head?_append_of_ne_nil _ (held v listed), List.cons_append, List.head?_cons,
        all x (by simp)] at same
    have start : c.before = [] := by
      cases parts : c.before with
      | nil => rfl
      | cons z more =>
        refine absurd ?_ (taken_starts taken first)
        rw [parts, List.head?_cons, all z (by simp [parts])]
    have whole := guard_size (n := n) (y := w.head?) (by rw [before]; simp)
    have stop := (words_stop taken).1
    have own := small v listed
    rw [c.offset_eq, start, Text.size_nil] at stop
    rw [(front n w).offset_eq, front_before]
    omega

theorem guarded_first (small : ∀ v ∈ l, Text.size v < n)
    (longest : l.Pairwise fun a b => Text.size b ≤ Text.size a) (some_word : w ≠ [])
    (some_digits : 0 < n) (listed : w ∈ l) :
    (wordsPattern l).matchAt? (front n w) = some ⟨front n w, back n w, []⟩ := by
  have own := guarded_taken some_word some_digits
  rw [words_matchAt?]
  cases first : l.findSome? fun v => wordWay false v (front n w) with
  | none =>
    rw [List.findSome?_eq_none_iff.mp first w listed] at own
    cases own
  | some d =>
    obtain ⟨tried, v, untried, parts, here, missed⟩ := List.findSome?_eq_some_iff.mp first
    have longer : Text.size w ≤ Text.size v := by
      rw [parts] at listed longest
      rcases List.mem_append.mp listed with before | later
      · rw [missed w before] at own
        cases own
      · rcases List.mem_cons.mp later with rfl | behind
        · exact Nat.le_refl _
        · exact (List.pairwise_cons.mp (List.pairwise_append.mp longest).2.1).1 w behind
    cases guarded_only (small v (by simp [parts])) here longer
    cases own.symm.trans here
    rfl

def place (n : Nat) (w : Text) : Span := ⟨(front n w).offset, (back n w).offset⟩

theorem place_size (n : Nat) (w : Text) :
    (back n w).offset = (front n w).offset + Text.size w := Nat.add_comm _ _

-- Between its guards a word is found exactly if it is listed.
theorem guarded_found (held : ∀ v ∈ l, v ≠ []) (small : ∀ v ∈ l, Text.size v < n)
    (longest : l.Pairwise fun a b => Text.size b ≤ Text.size a) (some_word : w ≠ [])
    (some_digits : 0 < n) :
    place n w ∈ Pattern.strides ((wordsPattern l).allMatches (guarded n w)) ↔ w ∈ l := by
  have leads : (Cursor.start (guarded n w)).Leads (fun _ => True) (front n w) :=
    ⟨guard n w.head?, by simp, rfl, (List.append_nil _).symm⟩
  obtain ⟨sooner, later, parts, before, scan⟩ :=
    Scan.reaches (Pattern.stride_strict _) (Pattern.allMatches_scan (guarded n w)) leads
      fun c d k leads jumps => guarded_kept held small leads jumps
  have here : place n w ∈ sooner ++ later ↔ place n w ∈ later := by
    rw [List.mem_append, or_iff_right]
    exact fun found => Nat.lt_irrefl _ (before _ found)
  rw [parts, here, place, Pattern.scan_here scan, place_size]
  constructor
  · rintro ⟨m, found, -, stop⟩
    obtain ⟨v, listed, taken⟩ := words_taken found
    have reach := (words_stop taken).1
    cases guarded_only (small v listed) taken (by omega)
    exact listed
  · intro listed
    have longer := Text.size_pos some_word
    refine ⟨_, guarded_first small longest some_word some_digits listed, ?_, place_size n w⟩
    rw [Pattern.Match.isEmpty, place_size, beq_eq_false_iff_ne]
    change (front n w).offset ≠ _
    omega

theorem spans_nodup (e : Finder) (w : Window) : (e.spans w).Nodup := by
  have apart := List.pairwise_map.mp (e.spans_apart () w)
  refine apart.imp_of_mem fun {s t} member _ before same => ?_
  have wide := (e.spans_within w s member).2.1
  subst same
  exact absurd wide (Nat.not_lt.mpr before)

theorem words_count (small : ∀ v ∈ arrangeWords words, Text.size v < n) (some_word : w ≠ [])
    (some_digits : 0 < n) :
    ((ofWords? words false).toList.flatMap fun e => e.spans (.whole (guarded n w))).count
      (place n w) = if w ∈ arrangeWords words then 1 else 0 := by
  by_cases nothing : arrangeWords words = []
  · have none_found : ofWords? words false = none := by simp [ofWords?, nothing]
    simp [none_found, nothing]
  · have held : ∀ v ∈ arrangeWords words, v ≠ [] := fun v listed => (mem_arrangeWords.mp listed).1
    have found := guarded_found held small (arrangeWords_longest words) some_word some_digits
    rw [← spans_whole _ false] at found
    rw [ofWords?_held nothing, Option.toList_some, List.flatMap_singleton]
    split
    · rename_i listed
      exact List.count_eq_one_of_mem (spans_nodup _ _) (found.mpr listed)
    · rename_i missing
      exact List.count_eq_zero_of_not_mem fun member => missing (found.mp member)

end LiveHighlight.Rules.Finder
