import LiveHighlight.Proofs.Bytes
import LiveHighlight.Proofs.Points
import LiveHighlight.Proofs.SweptRegions

-- Lines laid end to end. The scan of a text goes from terminator to terminator: behind each start
-- comes the content of a line, one terminator, and the next start.

namespace LiveHighlight.LineIndex

open Text (Terminator)

variable {t left line right content behind : Text} {base row n : Nat} {x : Char}

theorem scanned_content (inLine : content.inLine = true) (base : Nat) (behind : Text) :
    startsBehind base (content ++ behind) = startsBehind (base + Text.size content) behind := by
  induction content generalizing base with
  | nil => rfl
  | cons c content ih =>
    obtain ⟨own, others⟩ := Bool.and_eq_true_iff.mp inLine
    have goes : Text.isTerminator c = false := by simpa using own
    have plain : c ≠ '\r' := by
      rintro rfl
      cases goes
    rw [List.cons_append, startsBehind, goes, if_neg Bool.false_ne_true, ih others,
      Text.size_cons, Nat.add_assoc]
    exact fun _ same => absurd same plain

inductive Mark : Text → Text → Prop where
  | feed {right : Text} : Mark ['\n'] right
  | pair {right : Text} : Mark ['\r', '\n'] right
  | carriage {right : Text} (single : right.head? ≠ some '\n') : Mark ['\r'] right

theorem scanned_mark (ends : Text.isTerminator x = true) (base : Nat) (more : Text) :
    ∃ mark right, x :: more = mark ++ right ∧ Mark mark right ∧
      startsBehind base (x :: more) =
        (base + Text.size mark) :: startsBehind (base + Text.size mark) right := by
  simp only [Text.isTerminator, Bool.or_eq_true, beq_iff_eq] at ends
  rcases ends with rfl | rfl
  · exact ⟨['\n'], more, rfl, .feed, rfl⟩
  · by_cases feed : more.head? = some '\n'
    · obtain ⟨right, rfl⟩ := List.head?_eq_some_iff.mp feed
      exact ⟨['\r', '\n'], right, rfl, .pair, rfl⟩
    · refine ⟨['\r'], more, rfl, .carriage feed, ?_⟩
      rw [startsBehind]
      · rfl
      · rintro rest - rfl
        exact feed rfl

theorem starts_behind (whole : t = left ++ right)
    (starts : (ofText t).lineStart? row = some (Text.size left)) :
    (ofText t).starts.drop (row + 1) = startsBehind (Text.size left) right := by
  obtain ⟨within, at_row⟩ := List.getElem?_eq_some_iff.mp starts
  have parts := List.take_append_drop row (ofText t).starts
  rw [List.drop_eq_getElem_cons within, at_row] at parts
  have sorted := ofText_sorted t
  rw [← parts, List.pairwise_append, List.pairwise_cons] at sorted
  obtain ⟨-, ⟨later, others⟩, earlier⟩ := sorted
  refine List.Pairwise.eq_of_mem_iff others (scanned_sorted _ _) fun n => ?_
  rw [mem_scanned]
  constructor
  · intro member
    have listed : n ∈ (ofText t).starts := List.mem_of_mem_drop member
    rw [mem_ofText, whole] at listed
    exact (startsAt_behind (later n member)).mp listed
  · intro found
    have beyond := startsBehind_later found
    have listed : n ∈ (ofText t).starts := by
      rw [mem_ofText, whole]
      exact (startsAt_behind beyond).mpr found
    rw [← parts, List.mem_append, List.mem_cons] at listed
    rcases listed with before | rfl | behind
    · have ahead := earlier n before (Text.size left) (by simp)
      omega
    · omega
    · exact behind

theorem mark_terminator {mark : Text} (own : Mark mark right) (inLine : content.inLine = true)
    (starts : startsBetween left.getLast? (content ++ (mark ++ right)).head? = true) :
    Terminator (left ++ content) mark right := by
  cases own with
  | pair => exact .pair
  | carriage single => exact .carriage single
  | feed =>
    refine .feed fun last => ?_
    rcases List.eq_nil_or_concat content with rfl | ⟨front, c, rfl⟩
    · rw [List.append_nil] at last
      rw [last] at starts
      cases starts
    · rw [List.concat_eq_append] at inLine last
      rw [← List.append_assoc, List.getLast?_concat] at last
      cases last
      have inner := (Text.inLine_append.mp inLine).2
      cases inner

-- A line among the others: where it lies, what it starts behind, and how it ends.
structure Tile (t : Text) (row : Nat) (left line right : Text) : Prop where
  whole : t = left ++ (line ++ right)
  span : (ofText t).lineSpan? row (Text.size t) =
    some ⟨Text.size left, Text.size left + Text.size line⟩
  first : row = 0 → left = []
  next : row + 1 < (ofText t).lineCount →
    (∃ span, (ofText t).lineSpan? (row + 1) (Text.size t) = some span ∧
      span.start = Text.size left + Text.size line) ∧
    ∃ content mark, line = content ++ mark ∧ content.inLine = true ∧
      Terminator (left ++ content) mark right
  last : row + 1 = (ofText t).lineCount → right = [] ∧ line.inLine = true

theorem tile (within : row < (ofText t).lineCount) : ∃ left line right, Tile t row left line right := by
  obtain ⟨here, left, rest, whole, place, starts⟩ := bound_start within
  have span := lineSpan?_bound within
  have first : row = 0 → left = [] := by
    rintro rfl
    rwa [bound_zero, Text.size_eq_zero] at place
  rw [← place] at here span
  have later := congrArg List.head? (starts_behind whole here)
  rw [List.head?_drop] at later
  change (ofText t).lineStart? (row + 1) = _ at later
  have parts := Text.lineContent_parts rest
  have inLine := Text.lineContent_inLine rest
  have head := fun x => Text.lineContent_head (t := rest) (x := x)
  generalize (Text.lineContent rest).1 = content at parts inLine
  generalize (Text.lineContent rest).2 = behind at parts head
  subst parts
  rw [scanned_content inLine] at later
  cases behind with
  | nil =>
    have final : row + 1 = (ofText t).lineCount := by
      have beyond := List.getElem?_eq_none_iff.mp later
      simp only [lineCount] at within ⊢
      omega
    refine ⟨left, content, [], whole, ?_, first, fun more => absurd final (by omega),
      fun _ => ⟨rfl, inLine⟩⟩
    rw [span, final, bound_count, whole, Text.size_append, List.append_nil]
  | cons x more =>
    obtain ⟨mark, right, same, own, scanned⟩ :=
      scanned_mark (head x rfl) (Text.size left + Text.size content) more
    rw [scanned, List.head?_cons, Nat.add_assoc, ← Text.size_append] at later
    rw [same] at whole starts
    have inside : row + 1 < (ofText t).lineCount := (List.getElem?_eq_some_iff.mp later).1
    refine ⟨left, content ++ mark, right, by rw [whole, List.append_assoc], ?_, first,
      fun _ => ⟨?_, content, mark, rfl, inLine, mark_terminator own inLine starts⟩,
      fun final => by omega⟩
    · rw [span, Option.some.inj ((bound_start inside).1.symm.trans later)]
    · exact ⟨_, by rw [lineSpan?, later, Option.map_some], rfl⟩

-- The lines of a text lie end to end. Each but the last is content and one terminator, and the two
-- bytes beside an offset tell whether a line starts there.
theorem lines_tile (t : Text) :
    0 < (ofText t).lineCount ∧
    (∀ row, row < (ofText t).lineCount → ∃ left line right, Tile t row left line right) ∧
    ∀ n, n ≤ Text.size t → (n ∈ (ofText t).starts ↔
      startsBetweenBytes ((Text.bytes t).take n).getLast? ((Text.bytes t).drop n).head? = true) :=
  ⟨Nat.zero_lt_succ _, fun _ within => tile within,
    fun _ within => mem_ofText.trans (startsAt_bytes within)⟩

theorem lines_tile_pair :
    1 < (ofText ['\r', '\r', '\n', 'é']).lineCount ∧
      (∃ left line right, Tile ['\r', '\r', '\n', 'é'] 1 left line right) ∧
      (ofText ['\r', '\r', '\n', 'é']).lineSpan? 1 5 = some ⟨1, 3⟩ ∧
      2 ∉ (ofText ['\r', '\r', '\n', 'é']).starts ∧
      4 ∉ (ofText ['\r', '\r', '\n', 'é']).starts := by
  obtain ⟨-, tiles, bytes⟩ := lines_tile ['\r', '\r', '\n', 'é']
  have within : 1 < (ofText ['\r', '\r', '\n', 'é']).lineCount := by decide
  refine ⟨within, tiles 1 within, by decide, ?_, ?_⟩
  · exact (bytes 2 (by decide)).not.mpr (by decide)
  · exact (bytes 4 (by decide)).not.mpr (by decide)

end LiveHighlight.LineIndex
