import LiveHighlight.Proofs.FinderLines
import LiveHighlight.Rules.Sweep

-- Where delimiters stand. Their occurrences are found by a scan as well, and one that holds no
-- line terminator, except perhaps as its last character, lies on one line.

namespace LiveHighlight

namespace Text

theorem strip?_exact {needle t behind : Text} :
    strip? needle t = some behind ↔ t = needle ++ behind := by
  induction needle generalizing t with
  | nil => simp [strip?]
  | cons c needle ih =>
    cases t with
    | nil => simp [strip?]
    | cons d t =>
      simp only [strip?, List.cons_append, List.cons.injEq]
      split
      · rename_i same
        simp [ih, same]
      · rename_i differs
        simp [Ne.symm differs]

def inLine (t : Text) : Bool := t.all fun c => !isTerminator c

theorem inLine_append {t u : Text} :
    inLine (t ++ u) = true ↔ t.inLine = true ∧ u.inLine = true := by
  simp only [inLine, List.all_append, Bool.and_eq_true]

def endsLine (t : Text) : Bool := t.dropLast.all fun c => !isTerminator c

theorem inLine_endsLine {t : Text} (kept : t.inLine = true) : t.endsLine = true := by
  simp only [inLine, endsLine, List.all_eq_true] at kept ⊢
  exact fun c member => kept c (List.dropLast_subset _ member)

theorem strip?_front {needle z y behind : Text} {x : Char} (kept : needle.endsLine = true)
    (last : z.getLast? = some x) (ends : isTerminator x = true)
    (found : z ++ y = needle ++ behind) : ∃ b, z = needle ++ b := by
  rcases Nat.lt_or_ge (size z) (size needle) with shorter | longer
  · exfalso
    obtain ⟨between, held, whole, -⟩ := halves_of_lt found shorter
    have member : x ∈ needle.dropLast := by
      rw [whole, List.dropLast_append_of_ne_nil held]
      exact List.mem_append_left _ (List.mem_of_getLast? last)
    have within := List.all_eq_true.mp kept x member
    simp [ends] at within
  · obtain ⟨b, whole, -⟩ := halves_of_le found.symm longer
    exact ⟨b, whole⟩

end Text

namespace Rules.Occurrence

variable {needle : Text} {c d : Cursor} {o : Occurrence} {at? : Cursor → Option Occurrence}
  {limit : Nat} {w : Window}

def find (at? : Cursor → Option Occurrence) (c : Cursor) : Move Occurrence :=
  match at? c with
  | none => .on
  | some o => .jump o.stop [o]

def Ahead (at? : Cursor → Option Occurrence) : Prop :=
  ∀ c o, at? c = some o → c.Leads (fun _ => True) o.start ∧
    o.start.Leads (fun _ => True) o.stop ∧ o.stop.rest.length < o.start.rest.length

theorem onward_last (last : c.rest = []) : c.onward = [c] := by
  obtain ⟨before, rest, offset, exact_offset⟩ := c
  cases last
  rfl

theorem onward_more {x : Char} {rest : Text} (head : c.rest = x :: rest) :
    c.onward = c :: (c.advance x rest).onward := by
  obtain ⟨before, rest', offset, exact_offset⟩ := c
  cases head
  rfl

theorem apart_reached (leads : c.Leads (fun _ => True) d) :
    apart at? d.offset c.onward = apart at? d.offset d.onward := by
  obtain ⟨u, -, rest, before⟩ := leads
  induction u generalizing c with
  | nil =>
    have same : c = d := Cursor.same_place (by simpa using before.symm) (by simpa using rest)
    rw [same]
  | cons x u ih =>
    have earlier : c.offset < d.offset := by
      have positive := x.utf8Size_pos
      rw [c.offset_eq, d.offset_eq, before]
      simp only [Text.size_append, Text.size_reverse, Text.size_cons]
      omega
    rw [onward_more rest, apart, if_pos earlier]
    apply ih rfl
    rw [before]
    simp [Cursor.advance]

theorem next_reaches {x : Char} {rest : Text} (head : c.rest = x :: rest)
    (leads : c.Leads (fun _ => True) d) (fewer : d.rest.length < c.rest.length) :
    (c.advance x rest).Leads (fun _ => True) d := by
  obtain ⟨u, -, parts, before⟩ := leads
  cases u with
  | nil =>
    rw [parts] at fewer
    exact absurd fewer (Nat.lt_irrefl _)
  | cons y u =>
    rw [head] at parts
    obtain ⟨rfl, tail⟩ := List.cons.inj parts
    exact ⟨u, by simp, tail, by simpa [Cursor.advance] using before⟩

theorem apart_scan (ahead : Ahead at?) (c : Cursor) (limit : Nat) (passed : limit ≤ c.offset) :
    Scan (find at?) c (apart at? limit c.onward) := by
  generalize length : c.rest.length = n
  induction n using Nat.strongRecOn generalizing c limit with
  | ind n ih =>
    subst length
    have here : ¬ c.offset < limit := Nat.not_lt_of_ge passed
    cases rest : c.rest with
    | nil =>
      rw [onward_last rest, apart, if_neg here]
      cases found : at? c with
      | none => exact .stay (by simp [find, found]) rest
      | some o =>
        exfalso
        obtain ⟨first, second, fewer⟩ := ahead c o found
        have short := first.length_le
        rw [rest, List.length_nil] at short
        omega
    | cons x tail =>
      rw [onward_more rest, apart, if_neg here]
      have more := Scan.next?_rest rest
      have shorter : (c.advance x tail).rest.length < c.rest.length := by
        simp [rest, Cursor.advance]
      have further := (Scan.next?_leads more).offset
      cases found : at? c with
      | none =>
        exact .skip (by simp [find, found]) more
          (ih _ shorter (c.advance x tail) limit (by omega) rfl)
      | some o =>
        obtain ⟨first, second, fewer⟩ := ahead c o found
        have short := first.length_le
        have leads := next_reaches rest (first.trans second) (by omega)
        dsimp only
        rw [apart_reached leads]
        have step : find at? c = .jump o.stop [o] := by simp [find, found]
        exact .jump step (ih _ (by omega) o.stop o.stop.offset (Nat.le_refl _) rfl)

theorem here?_exact : here? needle c = some o ↔
    ∃ behind, c.rest = needle ++ behind ∧ o = ⟨c, c.past needle behind⟩ := by
  unfold here?
  constructor
  · intro found
    obtain ⟨behind, stripped, rfl⟩ := Option.map_eq_some_iff.mp found
    exact ⟨behind, Text.strip?_exact.mp stripped, rfl⟩
  · intro stands
    obtain ⟨behind, rest, rfl⟩ := stands
    exact Option.map_eq_some_iff.mpr ⟨behind, Text.strip?_exact.mpr rest, rfl⟩

theorem past_leads {behind : Text} (rest : c.rest = needle ++ behind) :
    c.Leads (fun _ => True) (c.past needle behind) := ⟨needle, by simp, rest, rfl⟩

theorem here?_ahead (held : needle ≠ []) : Ahead (here? needle) := by
  intro c o found
  obtain ⟨behind, rest, rfl⟩ := here?_exact.mp found
  refine ⟨c.leads_self, past_leads rest, ?_⟩
  have positive := List.length_pos_of_ne_nil held
  simp only [rest, Cursor.past, List.length_append]
  omega

theorem indented?_ahead (held : needle ≠ []) {rest : Text} (at_rest : c.rest = rest)
    (found : indented? needle c rest = some o) : c.Leads (fun _ => True) o.start ∧
      o.start.Leads (fun _ => True) o.stop ∧ o.stop.rest.length < o.start.rest.length := by
  induction rest generalizing c with
  | nil =>
    have same : c.withRest [] = c := Cursor.same_place rfl at_rest.symm
    rw [indented?, same] at found
    exact here?_ahead held c o found
  | cons x rest ih =>
    have same : c.withRest (x :: rest) = c := Cursor.same_place rfl at_rest.symm
    rw [indented?, same] at found
    split at found
    · rcases Option.or_eq_some_iff.mp found with deeper | ⟨-, here⟩
      · obtain ⟨leads, others⟩ := ih rfl deeper
        have step : c.Leads (fun _ => True) (c.advance x rest) :=
          Cursor.leads_advance at_rest trivial
        exact ⟨step.trans leads, others⟩
      · exact here?_ahead held c o here
    · exact here?_ahead held c o found

def leadingAt? (w : Window) (needle : Text) (c : Cursor) : Option Occurrence :=
  if w.isLineStart c then indented? needle c c.rest else none

theorem leadingAt?_ahead (w : Window) (held : needle ≠ []) : Ahead (leadingAt? w needle) := by
  intro c o found
  unfold leadingAt? at found
  split at found
  · exact indented?_ahead held rfl found
  · cases found

theorem all_scan (w : Window) (held : needle ≠ []) :
    Scan (find (here? needle)) w.start (all w needle) :=
  apart_scan (here?_ahead held) w.start 0 (Nat.zero_le _)

theorem leading_scan (w : Window) (held : needle ≠ []) :
    Scan (find (leadingAt? w needle)) w.start (leading w needle) :=
  apart_scan (leadingAt?_ahead w held) w.start 0 (Nat.zero_le _)

end Rules.Occurrence

namespace Pattern.Frame

open Rules Occurrence

variable {f : Frame} {needle u z : Text} {c c' : Cursor} {o o' : Option Occurrence}

def Twins (f : Frame) (o o' : Occurrence) : Prop :=
  f.Near o.start o'.start ∧ f.Near o.stop o'.stop

inductive Alike? (f : Frame) : Option Occurrence → Option Occurrence → Prop where
  | missed : Alike? f none none
  | met {o o' : Occurrence} (twins : f.Twins o o') : Alike? f (some o) (some o')

theorem alike?_or {a b : Option Occurrence} {a' b' : Option Occurrence} (first : f.Alike? a a')
    (second : f.Alike? b b') : f.Alike? (a.or b) (a'.or b') := by
  cases first with
  | missed => exact second
  | met twins => exact .met twins

theorem needle_within (bounded : f.Closed ∨ f.Ended) (kept : needle.endsLine = true)
    (inside : f.Inside z) (whole : f.text = u ++ z) {right behind : Text}
    (open_right : f.Closed → right = []) (found : z ++ right = needle ++ behind) :
    ∃ b, z = needle ++ b := by
  by_cases closed : f.Closed
  · rw [open_right closed, List.append_nil] at found
    exact ⟨behind, found⟩
  · obtain ⟨t, x, last, ends⟩ := bounded.resolve_left closed
    have held := inside.resolve_right closed
    have at_end : z.getLast? = some x := by
      have same := congrArg List.getLast? (whole.symm.trans last)
      rw [List.getLast?_append_of_ne_nil _ held] at same
      simpa using same
    exact Text.strip?_front kept at_end ends found

theorem here?_alike (bounded : f.Closed ∨ f.Ended) (kept : needle.endsLine = true)
    (inside : f.Inside z) (stands : f.Stands u z c c') :
    f.Alike? (here? needle c) (here? needle c') := by
  by_cases starts : ∃ b, z = needle ++ b
  · obtain ⟨b, rfl⟩ := starts
    have found : here? needle c = some ⟨c, c.past needle (b ++ f.right)⟩ :=
      here?_exact.mpr ⟨_, by rw [stands.rest, List.append_assoc], rfl⟩
    have found' : here? needle c' = some ⟨c', c'.past needle (b ++ f.right')⟩ :=
      here?_exact.mpr ⟨_, by rw [stands.rest', List.append_assoc], rfl⟩
    rw [found, found']
    refine .met ⟨⟨_, _, stands⟩, u ++ needle, b, ?_, ?_, rfl, ?_, rfl⟩
    · rw [stands.whole, List.append_assoc]
    · simp [Cursor.past, stands.before]
    · simp [Cursor.past, stands.before']
  · have nothing : here? needle c = none := by
      refine Option.eq_none_iff_forall_ne_some.mpr fun o found => starts ?_
      obtain ⟨behind, rest, -⟩ := here?_exact.mp found
      rw [stands.rest] at rest
      exact needle_within bounded kept inside stands.whole (fun closed => closed.1) rest
    have nothing' : here? needle c' = none := by
      refine Option.eq_none_iff_forall_ne_some.mpr fun o found => starts ?_
      obtain ⟨behind, rest, -⟩ := here?_exact.mp found
      rw [stands.rest'] at rest
      exact needle_within bounded kept inside stands.whole (fun closed => closed.2) rest
    rw [nothing, nothing']
    exact .missed

theorem indented?_alike (bounded : f.Closed ∨ f.Ended) (kept : needle.endsLine = true)
    (inside : f.Inside z) (stands : f.Stands u z c c') :
    f.Alike? (indented? needle c (z ++ f.right)) (indented? needle c' (z ++ f.right')) := by
  induction z generalizing u c c' with
  | nil =>
    obtain ⟨right, right'⟩ := inside.resolve_left (by simp)
    have here : c.withRest [] = c := Cursor.same_place rfl (by simp [stands.rest, right, Cursor.withRest])
    have here' : c'.withRest [] = c' :=
      Cursor.same_place rfl (by simp [stands.rest', right', Cursor.withRest])
    rw [right, right', List.nil_append, indented?, indented?, here, here']
    exact here?_alike bounded kept inside stands
  | cons x z ih =>
    have here : c.withRest (x :: (z ++ f.right)) = c := Cursor.same_place rfl stands.rest.symm
    have here' : c'.withRest (x :: (z ++ f.right')) = c' := Cursor.same_place rfl stands.rest'.symm
    have found := here?_alike bounded kept inside stands
    rw [List.cons_append, List.cons_append, indented?, indented?, here, here']
    split
    · rename_i blank
      have more : f.Inside z := by
        by_cases closed : f.Closed
        · exact .inr closed
        · left
          intro spent
          obtain ⟨t, y, last, ends⟩ := bounded.resolve_left closed
          have member := ended_member last stands.whole (by simp)
          rw [spent, List.mem_singleton] at member
          subst member
          simp only [isIndent, Bool.or_eq_true, beq_iff_eq] at blank
          rcases blank with rfl | rfl <;> cases ends
      exact alike?_or (ih more stands.advance) found
    · exact found

theorem leadingAt?_alike {w w' : Window} (bounded : f.Closed ∨ f.Ended) (level : f.Level)
    (kept : needle.endsLine = true) (starts : f.Stands [] f.text w.start w'.start)
    (inside : f.Inside z) (stands : f.Stands u z c c') :
    f.Alike? (leadingAt? w needle c) (leadingAt? w' needle c') := by
  have line : c.isLineStart = c'.isLineStart :=
    look_agrees (l := .lineStart) level.edge rfl inside stands
  have at_start : (c.offset == w.start.offset) = (c'.offset == w'.start.offset) := by
    rw [stands.offset, stands.offset', starts.offset, starts.offset', Bool.eq_iff_iff]
    simp only [beq_iff_eq]
    omega
  unfold leadingAt? Window.isLineStart
  rw [line, at_start, stands.rest, stands.rest']
  split
  · exact indented?_alike bounded kept inside stands
  · exact .missed

theorem find_alike {at? at?' : Cursor → Option Occurrence} (found : f.Alike? (at? c) (at?' c')) :
    Move.Alike f.Near f.Twins (find at? c) (find at?' c') := by
  unfold find
  generalize at? c = o at found
  generalize at?' c' = o' at found
  cases found with
  | missed => exact .on
  | met twins => exact .jump twins.2 (.cons twins .nil)

end Pattern.Frame

namespace Rules.Occurrence

open Pattern (Frame)

variable {needle x y t : Text} {last : Char} {w : Window} {c : Cursor}

theorem find_last {at? : Cursor → Option Occurrence} (ahead : Ahead at?) (spent : c.rest = []) :
    find at? c = .on := by
  unfold find
  split
  · rfl
  · rename_i o found
    obtain ⟨leads, -, fewer⟩ := ahead c o found
    have short := leads.length_le
    rw [spent, List.length_nil] at short
    omega

theorem find_congr {at? at?' : Cursor → Option Occurrence} {l : List Occurrence}
    (ahead : Ahead at?) (same : ∀ {d : Cursor}, c.Leads (fun _ => True) d → at? d = at?' d)
    (scan : Scan (find at?) c l) : Scan (find at?') c l := by
  induction scan with
  | stay nothing last =>
    rename_i c
    rw [find, same c.leads_self] at nothing
    exact .stay nothing last
  | skip nothing more rest ih =>
    rename_i c d l
    rw [find, same c.leads_self] at nothing
    exact .skip nothing more (ih fun leads => same ((Scan.next?_leads more).trans leads))
  | jump found rest ih =>
    rename_i c d l k
    cases here : at? c with
    | none => simp [find, here] at found
    | some o =>
      obtain ⟨first, second, -⟩ := ahead c o here
      have jumps : find at?' c = .jump o.stop [o] := by simp [find, ← same c.leads_self, here]
      simp only [find, here, Move.jump.injEq] at found
      obtain ⟨rfl, rfl⟩ := found
      exact .jump jumps (ih fun leads => same ((first.trans second).trans leads))

theorem all_cut (held : needle ≠ []) (kept : needle.endsLine = true) (body : w.body = x ++ y)
    (front : x = t ++ [last]) (ends : Text.isTerminator last = true) :
    ∃ l', List.Forall₂ (w.seam x y).Twins (all (w.front x y) needle) l' ∧
      all w needle = l' ++ all (w.back x y) needle := by
  have ended : (w.seam x y).Ended := ⟨t, last, front, ends⟩
  have tail : ∀ e : Cursor, e.before = x.reverse ++ w.start.before → e.rest = y →
      Scan (find (here? needle)) e (all (w.back x y) needle) := by
    intro e before rest
    have place : e = (w.back x y).start := Cursor.same_place before rest
    rw [place]
    exact all_scan (w.back x y) held
  obtain ⟨l', twins, whole⟩ := Frame.scan_onto (f := w.seam x y) rfl
    (fun _ => find_last (here?_ahead held))
    (fun more stands => Frame.find_alike (Frame.here?_alike (.inr ended) kept (.inl more) stands))
    tail (w.seam_near body) (all_scan (w.front x y) held)
  exact ⟨l', twins, (all_scan w held).unique whole⟩

-- A line that starts with the second half starts there also when it is seen as a whole.
theorem leadingAt?_back (held : needle ≠ []) (kept : needle.inLine = true)
    (body : w.body = x ++ y) (front : x = t ++ [last]) (ends : Text.isTerminator last = true)
    (leads : (w.back x y).start.Leads (fun _ => True) c) :
    leadingAt? (w.back x y) needle c = leadingAt? w needle c := by
  have behind : w.start.offset < (w.back x y).start.offset := by
    have positive : 0 < Text.size x := Text.size_pos (by simp [front])
    simp only [Window.back, Cursor.past]
    omega
  have ahead := leads.offset
  have later : (c.offset == w.start.offset) = false := by simpa using by omega
  by_cases at_start : c.offset = (w.back x y).start.offset
  · have same := leads.same_of_offset at_start.symm
    subst same
    have before : (w.back x y).start.before.head? = some last := by
      simp [Window.back, Cursor.past, front]
    by_cases feed : y.head? = some '\n'
    · -- no delimiter starts with the second character of a terminator
      obtain ⟨y, rfl⟩ := List.head?_eq_some_iff.mp feed
      have nothing : indented? needle (w.back x ('\n' :: y)).start ('\n' :: y) = none := by
        rw [indented?, if_neg (by decide)]
        refine Option.eq_none_iff_forall_ne_some.mpr fun o found => ?_
        obtain ⟨behind, rest, -⟩ := here?_exact.mp found
        cases needle with
        | nil => exact held rfl
        | cons a needle =>
          have first : '\n' = a := (List.cons.inj rest).1
          have within := List.all_eq_true.mp kept a (by simp)
          rw [← first] at within
          cases within
      have rest : (w.back x ('\n' :: y)).start.rest = '\n' :: y := rfl
      simp only [leadingAt?, rest, nothing, ite_self]
    · have line : (w.back x y).start.isLineStart = true := by
        unfold Cursor.isLineStart
        rw [before]
        simp only [Text.isTerminator, Bool.or_eq_true, beq_iff_eq] at ends
        rcases ends with rfl | rfl
        · rfl
        · simpa [LineIndex.startsBetween, Window.back, Cursor.past] using feed
      simp [leadingAt?, Window.isLineStart, line]
  · simp [leadingAt?, Window.isLineStart, later, at_start]

theorem leading_back (held : needle ≠ []) (kept : needle.inLine = true)
    (body : w.body = x ++ y) (front : x = t ++ [last]) (ends : Text.isTerminator last = true) :
    Scan (find (leadingAt? w needle)) (w.back x y).start (leading (w.back x y) needle) := by
  exact find_congr (leadingAt?_ahead _ held)
    (fun leads => leadingAt?_back held kept body front ends leads) (leading_scan (w.back x y) held)

theorem leading_cut (held : needle ≠ []) (kept : needle.inLine = true) (body : w.body = x ++ y)
    (front : x = t ++ [last]) (ends : Text.isTerminator last = true) :
    ∃ l', List.Forall₂ (w.seam x y).Twins (leading (w.front x y) needle) l' ∧
      leading w needle = l' ++ leading (w.back x y) needle := by
  have ended : (w.seam x y).Ended := ⟨t, last, front, ends⟩
  have starts : (w.seam x y).Stands [] x (w.front x y).start w.start :=
    ⟨rfl, rfl, (List.append_nil _).symm, rfl, body⟩
  have tail : ∀ e : Cursor, e.before = x.reverse ++ w.start.before → e.rest = y →
      Scan (find (leadingAt? w needle)) e (leading (w.back x y) needle) := by
    intro e before rest
    have place : e = (w.back x y).start := Cursor.same_place before rest
    rw [place]
    exact leading_back held kept body front ends
  obtain ⟨l', twins, whole⟩ := Frame.scan_onto (f := w.seam x y) rfl
    (fun _ => find_last (leadingAt?_ahead (w.front x y) held))
    (fun more stands => Frame.find_alike (Frame.leadingAt?_alike (.inr ended) w.seam_level
      (Text.inLine_endsLine kept) starts (.inl more) stands))
    tail (w.seam_near body) (leading_scan (w.front x y) held)
  exact ⟨l', twins, (leading_scan w held).unique whole⟩

end Rules.Occurrence

end LiveHighlight
