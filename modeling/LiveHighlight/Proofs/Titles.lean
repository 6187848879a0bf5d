import LiveHighlight.Proofs.Cutting
import LiveHighlight.Rules.Outline

-- Titles with a line number in them. The number is put into the template before the template is
-- read, so what stands in front of it is read on its own only if no reference is left open there.

namespace LiveHighlight

namespace Pattern.Template

variable {t rest tail name behind front : Text} {c : Char} {bound bound' : Nat} {closes : Prop}

def brace : Char := '\x7b'

def closingBrace : Char := '\x7d'

theorem name_chars (named : isNameChar c = true) : c ≠ '$' ∧ c ≠ brace := by
  refine ⟨?_, ?_⟩
  · rintro rfl
    cases named
  · rintro rfl
    cases named

-- A reference as it stands behind a dollar sign: a name in braces, or a name as long as it goes.
inductive Refers : Text → Text → Text → Prop where
  | braced {name behind : Text} (inner : closingBrace ∉ name) :
      Refers (brace :: (name ++ closingBrace :: behind)) name behind
  | named {name behind : Text} (held : name ≠ []) (chars : ∀ c ∈ name, isNameChar c = true)
      (ends : ∀ c, behind.head? = some c → isNameChar c = false) :
      Refers (name ++ behind) name behind

theorem span_exact {p : Char → Bool} {a b : Text} : t.span p = (a, b) ↔
    t = a ++ b ∧ (∀ c ∈ a, p c = true) ∧ ∀ c, b.head? = some c → p c = false := by
  rw [List.span_eq_takeWhile_dropWhile, Prod.mk.injEq]
  constructor
  · rintro ⟨rfl, rfl⟩
    refine ⟨List.takeWhile_append_dropWhile.symm, fun c => List.mem_takeWhile_imp, fun c head => ?_⟩
    have stopped := List.head?_dropWhile_not p t
    rw [head] at stopped
    simpa using stopped
  · rintro ⟨rfl, all, ends⟩
    have stops : b.takeWhile p = [] ∧ b.dropWhile p = b := by
      cases b with
      | nil => exact ⟨rfl, rfl⟩
      | cons c b => simp [ends c rfl]
    rw [List.takeWhile_append_of_pos all, List.dropWhile_append_of_pos all, stops.1, stops.2,
      List.append_nil]
    exact ⟨rfl, rfl⟩

theorem braced?_exact : braced? rest = some (name, behind) ↔
    rest = name ++ closingBrace :: behind ∧ closingBrace ∉ name := by
  unfold braced?
  constructor
  · intro read
    generalize parts : rest.span (· != '\x7d') = halves at read
    obtain ⟨a, b⟩ := halves
    obtain ⟨rfl, inner, ends⟩ := span_exact.mp parts
    cases b with
    | nil => cases read
    | cons x b =>
      cases read
      have last : x = closingBrace := by simpa [closingBrace] using ends x rfl
      refine ⟨by rw [last], fun member => ?_⟩
      have other := inner _ member
      cases other
  · rintro ⟨rfl, inner⟩
    have parts : (name ++ closingBrace :: behind).span (· != '\x7d') =
        (name, closingBrace :: behind) := by
      refine span_exact.mpr ⟨rfl, fun c member => ?_, fun c head => ?_⟩
      · rw [bne_iff_ne]
        rintro rfl
        exact inner member
      · cases head
        rfl
    rw [parts]

theorem reference?_exact : reference? rest = some (name, behind) ↔ Refers rest name behind := by
  constructor
  · intro read
    unfold reference? at read
    split at read
    · obtain ⟨rfl, inner⟩ := braced?_exact.mp read
      exact .braced inner
    · generalize parts : rest.span isNameChar = halves at read
      obtain ⟨a, b⟩ := halves
      obtain ⟨rfl, chars, ends⟩ := span_exact.mp parts
      dsimp only at read
      split at read
      · cases read
      · rename_i held
        cases read
        exact .named (by simpa using held) chars ends
  · intro refers
    cases refers with
    | braced inner => exact braced?_exact.mpr ⟨rfl, inner⟩
    | named held chars ends =>
      unfold reference?
      split
      · rename_i rest same
        obtain ⟨c, name, rfl⟩ := List.exists_cons_of_ne_nil held
        exact absurd (List.cons.inj same).1 (name_chars (chars c (by simp))).2
      · rw [span_exact.mpr ⟨rfl, chars, ends⟩]
        simpa using held

theorem Refers.shorter (refers : Refers rest name behind) : behind.length < rest.length := by
  cases refers with
  | braced inner => simp; omega
  | named held chars ends =>
    have positive := List.length_pos_iff.mpr held
    rw [List.length_append]
    omega

theorem Refers.other (refers : Refers rest name behind) : rest.head? ≠ some '$' := by
  cases refers with
  | braced inner => exact fun same => by cases same
  | named held chars ends =>
    obtain ⟨c, name, rfl⟩ := List.exists_cons_of_ne_nil held
    exact fun same => (name_chars (chars c (by simp))).1 (Option.some.inj same)

theorem pieces_plain (other : c ≠ '$') (bound : Nat) (rest : Text) :
    pieces (bound + 1) (c :: rest) = .plain c :: pieces bound rest := by
  rw [pieces]
  · rintro rest' rfl
    exact absurd rfl other
  · exact other

theorem pieces_dollar (other : rest.head? ≠ some '$') (bound : Nat) :
    pieces (bound + 1) ('$' :: rest) =
      match reference? rest with
      | some (name, behind) => .reference name :: pieces bound behind
      | none => .plain '$' :: pieces bound rest := by
  have single : ∀ rest', rest ≠ '$' :: rest' := by
    rintro rest' rfl
    exact other rfl
  cases read : reference? rest <;> simp only [pieces, read]

theorem pieces_enough (enough : t.length ≤ bound) : pieces bound t = ofText t := by
  suffices same : ∀ bound', t.length ≤ bound' → pieces bound t = pieces bound' t from
    same t.length (Nat.le_refl _)
  induction bound generalizing t with
  | zero =>
    intro bound' _
    rw [List.length_eq_zero_iff.mp (Nat.le_zero.mp enough)]
    cases bound' <;> rfl
  | succ bound ih =>
    intro bound' enough'
    cases t with
    | nil => cases bound' <;> rfl
    | cons c rest =>
      obtain ⟨bound', rfl⟩ := Nat.exists_eq_succ_of_ne_zero
        (Nat.pos_iff_ne_zero.mp (Nat.lt_of_lt_of_le (Nat.zero_lt_succ _) enough'))
      rw [List.length_cons] at enough enough'
      by_cases plain : c ≠ '$'
      · rw [pieces_plain plain, pieces_plain plain, ih (by omega) bound' (by omega)]
      · obtain rfl := not_not.mp plain
        by_cases doubled : rest.head? = some '$'
        · obtain ⟨rest, rfl⟩ := List.head?_eq_some_iff.mp doubled
          rw [List.length_cons] at enough enough'
          exact congrArg _ (ih (by omega) bound' (by omega))
        · rw [pieces_dollar doubled, pieces_dollar doubled]
          cases read : reference? rest with
          | none => rw [ih (by omega) bound' (by omega)]
          | some found =>
            have shorter := (reference?_exact.mp read).shorter
            dsimp only
            rw [ih (by omega) bound' (by omega)]

theorem ofText_plain (other : c ≠ '$') (rest : Text) :
    ofText (c :: rest) = .plain c :: ofText rest := pieces_plain other _ _

theorem ofText_dollars (rest : Text) : ofText ('$' :: '$' :: rest) = .plain '$' :: ofText rest :=
  congrArg _ (pieces_enough (Nat.le_succ _))

theorem ofText_reference (refers : Refers rest name behind) :
    ofText ('$' :: rest) = .reference name :: ofText behind := by
  rw [ofText, List.length_cons, pieces_dollar refers.other, reference?_exact.mpr refers]
  exact congrArg _ (pieces_enough (Nat.le_of_lt refers.shorter))

theorem ofText_lone (other : rest.head? ≠ some '$')
    (lone : ∀ name behind, ¬ Refers rest name behind) :
    ofText ('$' :: rest) = .plain '$' :: ofText rest := by
  have nothing : reference? rest = none :=
    Option.eq_none_iff_forall_ne_some.mpr fun found read => lone _ _ (reference?_exact.mp read)
  rw [ofText, List.length_cons, pieces_dollar other, nothing]
  rfl

-- What is read on its own whatever follows it. No reference without braces may reach the end.
inductive Sealed (closes : Prop) : Text → Prop where
  | nil : Sealed closes []
  | plain {c : Char} {rest : Text} (other : c ≠ '$') (more : Sealed closes rest) :
      Sealed closes (c :: rest)
  | dollars {rest : Text} (more : Sealed closes rest) : Sealed closes ('$' :: '$' :: rest)
  | reference {rest name behind : Text} (refers : Refers rest name behind)
      (ended : rest.head? = some brace ∨ behind ≠ []) (more : Sealed closes behind) :
      Sealed closes ('$' :: rest)
  | unclosed {rest : Text} (inner : closingBrace ∉ rest) (never : ¬ closes)
      (more : Sealed closes rest) : Sealed closes ('$' :: brace :: rest)
  | lone {c : Char} {rest : Text} (unnamed : isNameChar c = false) (other : c ≠ '$' ∧ c ≠ brace)
      (more : Sealed closes (c :: rest)) : Sealed closes ('$' :: c :: rest)

theorem Refers.append (refers : Refers rest name behind)
    (ended : rest.head? = some brace ∨ behind ≠ []) (tail : Text) :
    Refers (rest ++ tail) name (behind ++ tail) := by
  cases refers with
  | braced inner =>
    rw [List.cons_append, List.append_assoc]
    exact .braced inner
  | named held chars ends =>
    rw [List.append_assoc]
    refine .named held chars fun c head => ends c ?_
    cases behind with
    | nil =>
      rcases ended with opened | more
      · obtain ⟨c, name, rfl⟩ := List.exists_cons_of_ne_nil held
        exact absurd (Option.some.inj opened) (name_chars (chars c (by simp))).2
      · exact absurd rfl more
    | cons d behind => exact head

theorem ofText_unclosed (inner : closingBrace ∉ rest) :
    ofText ('$' :: brace :: rest) = .plain '$' :: .plain brace :: ofText rest := by
  have lone : ∀ name behind, ¬ Refers (brace :: rest) name behind := by
    intro name behind refers
    generalize whole : brace :: rest = t at refers
    cases refers with
    | braced _ =>
      obtain rfl := (List.cons.inj whole).2
      simp at inner
    | named held chars ends =>
      obtain ⟨c, name, rfl⟩ := List.exists_cons_of_ne_nil held
      exact (name_chars (chars c (by simp))).2 (List.cons.inj whole).1.symm
  have first : brace ≠ '$' := by decide
  rw [ofText_lone (by simpa using first) lone, ofText_plain first]

theorem ofText_unnamed (unnamed : isNameChar c = false) (other : c ≠ '$' ∧ c ≠ brace)
    (rest : Text) : ofText ('$' :: c :: rest) = .plain '$' :: ofText (c :: rest) := by
  refine ofText_lone (by simpa using other.1) fun name behind refers => ?_
  generalize whole : c :: rest = t at refers
  cases refers with
  | braced _ => exact other.2 (List.cons.inj whole).1
  | named held chars ends =>
    obtain ⟨d, name, rfl⟩ := List.exists_cons_of_ne_nil held
    have first : isNameChar d = true := chars d (by simp)
    rw [← (List.cons.inj whole).1, unnamed] at first
    cases first

theorem Sealed.append (own : Sealed closes t) (closed : closingBrace ∈ tail → closes) :
    ofText (t ++ tail) = ofText t ++ ofText tail := by
  induction own with
  | nil => rfl
  | plain other more ih =>
    rw [List.cons_append, ofText_plain other, ofText_plain other, ih, List.cons_append]
  | dollars more ih =>
    rw [List.cons_append, List.cons_append, ofText_dollars, ofText_dollars, ih, List.cons_append]
  | reference refers ended more ih =>
    rw [List.cons_append, ofText_reference (refers.append ended tail), ofText_reference refers, ih,
      List.cons_append]
  | @unclosed rest inner never more ih =>
    have outer : closingBrace ∉ rest ++ tail := by
      rw [List.mem_append]
      exact fun member => member.elim inner fun there => never (closed there)
    rw [List.cons_append, List.cons_append, ofText_unclosed outer, ofText_unclosed inner, ih,
      List.cons_append, List.cons_append]
  | lone unnamed other more ih =>
    rw [List.cons_append, List.cons_append, ofText_unnamed unnamed other,
      ofText_unnamed unnamed other, ← List.cons_append, ih, List.cons_append]

theorem ofText_open (held : name ≠ []) (chars : ∀ c ∈ name, isNameChar c = true) (tail : Text) :
    ofText ('$' :: (name ++ tail)) =
      .reference (name ++ (tail.span isNameChar).1) :: ofText (tail.span isNameChar).2 := by
  generalize parts : tail.span isNameChar = halves
  obtain ⟨a, b⟩ := halves
  obtain ⟨rfl, more, ends⟩ := span_exact.mp parts
  rw [← List.append_assoc]
  refine ofText_reference (.named (by simp [held]) (fun c member => ?_) ends)
  rcases List.mem_append.mp member with first | second
  · exact chars c first
  · exact more c second

inductive Behind : Text → Prop where
  | last : Behind []
  | doubled {more : Text} : Behind ('$' :: more)
  | reference {rest name behind : Text} (refers : Refers rest name behind) : Behind rest
  | unclosed {more : Text} (inner : closingBrace ∉ more) : Behind (brace :: more)
  | unnamed {c : Char} {more : Text} (unnamed : isNameChar c = false) (other : c ≠ '$' ∧ c ≠ brace) :
      Behind (c :: more)

theorem refers_closed (member : closingBrace ∈ rest) :
    ∃ name behind, Refers (brace :: rest) name behind := by
  obtain ⟨name, behind, rfl, inner⟩ := List.eq_append_cons_of_mem member
  exact ⟨name, behind, .braced inner⟩

theorem behind_cases (rest : Text) : Behind rest := by
  cases rest with
  | nil => exact .last
  | cons c more =>
    by_cases doubled : c = '$'
    · subst doubled
      exact .doubled
    · by_cases opened : c = brace
      · subst opened
        by_cases closed : closingBrace ∈ more
        · obtain ⟨name, behind, refers⟩ := refers_closed closed
          exact .reference refers
        · exact .unclosed closed
      · cases named : isNameChar c with
        | false => exact .unnamed named ⟨doubled, opened⟩
        | true =>
          generalize parts : (c :: more).span isNameChar = halves
          obtain ⟨name, behind⟩ := halves
          obtain ⟨whole, chars, ends⟩ := span_exact.mp parts
          have held : name ≠ [] := by
            rintro rfl
            rw [List.nil_append] at whole
            have stops := ends c (by rw [← whole]; rfl)
            rw [named] at stops
            cases stops
          rw [whole]
          exact .reference (.named held chars ends)

-- Only what is sealed is read on its own, if what follows starts as a name may go on.
theorem sealed_of_append {d : Char} (named : isNameChar d = true)
    (apart : ofText (t ++ d :: tail) = ofText t ++ ofText (d :: tail)) :
    Sealed (closingBrace ∈ d :: tail) t := by
  induction len : t.length using Nat.strong_induction_on generalizing t with
  | _ length ih =>
  subst len
  cases t with
  | nil => exact .nil
  | cons c rest =>
    by_cases plain : c ≠ '$'
    · rw [List.cons_append, ofText_plain plain, ofText_plain plain] at apart
      exact .plain plain (ih _ (Nat.lt_succ_self _) (List.cons.inj apart).2 rfl)
    · obtain rfl := not_not.mp plain
      cases behind_cases rest with
      | last =>
        have held : [d] ≠ [] := List.cons_ne_nil d []
        have opened := ofText_open held (by simpa using named) tail
        rw [List.singleton_append] at apart opened
        rw [opened] at apart
        cases (List.cons.inj apart).1
      | @doubled more =>
        rw [List.cons_append, List.cons_append, ofText_dollars, ofText_dollars] at apart
        exact .dollars (ih _ (by simp only [List.length_cons]; omega) (List.cons.inj apart).2 rfl)
      | @reference _ name behind refers =>
        have shorter := refers.shorter
        by_cases ended : rest.head? = some brace ∨ behind ≠ []
        · rw [List.cons_append, ofText_reference (refers.append ended _),
            ofText_reference refers] at apart
          exact .reference refers ended
            (ih _ (by simp only [List.length_cons]; omega) (List.cons.inj apart).2 rfl)
        · -- the name takes the next character in
          exfalso
          rw [List.cons_append, ofText_reference refers] at apart
          cases refers with
          | braced inner => exact ended (.inl rfl)
          | named held chars ends =>
            obtain rfl := not_not.mp fun more => ended (.inr more)
            rw [List.append_nil, ofText_open held chars] at apart
            have same := Piece.reference.inj (List.cons.inj apart).1
            simp [List.span_eq_takeWhile_dropWhile, named] at same
      | @unclosed more inner =>
        by_cases closed : closingBrace ∈ d :: tail
        · exfalso
          obtain ⟨name, behind, refers⟩ :=
            refers_closed (List.mem_append_right more closed)
          rw [List.cons_append, List.cons_append, ofText_reference refers,
            ofText_unclosed inner] at apart
          cases (List.cons.inj apart).1
        · have outer : closingBrace ∉ more ++ d :: tail := by
            rw [List.mem_append]
            exact fun member => member.elim inner closed
          rw [List.cons_append, List.cons_append, ofText_unclosed outer,
            ofText_unclosed inner] at apart
          exact .unclosed inner closed (ih _ (by simp only [List.length_cons]; omega)
            (List.cons.inj (List.cons.inj apart).2).2 rfl)
      | unnamed unnamed other =>
        rw [List.cons_append, List.cons_append, ofText_unnamed unnamed other,
          ofText_unnamed unnamed other] at apart
        exact .lone unnamed other (ih _ (Nat.lt_succ_self _) (List.cons.inj apart).2 rfl)

end Pattern.Template

namespace Pattern

variable {p : Pattern} {m : Match} {a b t : Text}

theorem expand_append (apart : Template.ofText (a ++ b) = Template.ofText a ++ Template.ofText b) :
    expand p m (a ++ b) = expand p m a ++ expand p m b := by
  rw [expand, apart, List.flatMap_append]
  rfl

theorem ofText_undollared (plain : ∀ c ∈ t, c ≠ '$') :
    Template.ofText t = t.map .plain := by
  induction t with
  | nil => rfl
  | cons c t ih =>
    rw [Template.ofText_plain (plain c (by simp)),
      ih fun d member => plain d (List.mem_cons_of_mem _ member), List.map_cons]

theorem expand_undollared (plain : ∀ c ∈ t, c ≠ '$') : expand p m t = t := by
  rw [expand, ofText_undollared plain, List.flatMap_map]
  exact List.flatMap_singleton' t

end Pattern

namespace Rules.Outline

open Pattern Pattern.Template

variable {p : Pattern} {m : Match} {digits first later out t : Text} {o : Outline} {c : Char}
  {n : Nat}

def lineMark : Text := ['$', 'L', 'N']

def number (m : Match) : Text := Text.decimal (lineNumber m.start.before.reverse)

theorem decimal_chars (member : c ∈ Text.decimal n) :
    isNameChar c = true ∧ c ≠ '$' ∧ c ≠ closingBrace := by
  have digit : c.isDigit = true := Nat.isDigit_of_mem_toDigits (by decide) (by decide) member
  refine ⟨by simp [isNameChar, Char.isAlphanum, digit], ?_, ?_⟩
  · rintro rfl
    cases digit
  · rintro rfl
    cases digit

theorem decimal_starts (n : Nat) :
    ∃ d rest, Text.decimal n = d :: rest ∧ isNameChar d = true := by
  obtain ⟨d, rest, same⟩ := List.exists_cons_of_ne_nil (Nat.toDigits_ne_nil (n := n) (b := 10))
  exact ⟨d, rest, same, (decimal_chars (n := n) (by rw [Text.decimal, same]; simp)).1⟩

theorem withLineNumber_mark (digits : Text) (plain : ¬ lineMark <:+: first) (later : Text) :
    withLineNumber digits (first ++ (lineMark ++ later)) =
      first ++ (digits ++ withLineNumber digits later) := by
  induction first with
  | nil => rfl
  | cons c rest ih =>
    have inner : ¬ lineMark <:+: rest := fun within =>
      plain (within.trans (List.suffix_cons c rest).isInfix)
    rw [List.cons_append, withLineNumber, ih inner, List.cons_append]
    -- no mark starts before the end of the part and ends behind it
    rintro more rfl same
    cases rest with
    | nil => cases same
    | cons x rest =>
      cases rest with
      | nil => cases same
      | cons y rest =>
        cases same
        exact plain ⟨[], rest, rfl⟩

theorem withLineNumber_closes (digits : Text) (inner : closingBrace ∉ digits) (t : Text) :
    closingBrace ∈ withLineNumber digits t ↔ closingBrace ∈ t := by
  fun_induction withLineNumber digits t with
  | case1 rest ih =>
    have marks : closingBrace ∉ lineMark := by decide
    rw [List.mem_append, ih, or_iff_right inner]
    exact ⟨fun later => List.mem_append_right lineMark later,
      fun whole => (List.mem_append.mp whole).resolve_left marks⟩
  | case2 c rest _ ih => rw [List.mem_cons, List.mem_cons, ih]
  | case3 => rfl

theorem withLineNumber_unmarked (digits : Text) (plain : ¬ lineMark <:+: t) :
    withLineNumber digits t = t := by
  fun_induction withLineNumber digits t with
  | case1 rest ih => exact absurd ⟨[], rest, rfl⟩ plain
  | case2 c rest _ ih =>
    rw [ih fun within => plain (within.trans (List.suffix_cons c rest).isInfix)]
  | case3 => rfl

theorem number_apart (n : Nat) (later : Text) : Template.ofText (Text.decimal n ++ later) =
    (Text.decimal n).map .plain ++ Template.ofText later := by
  have plain : ∀ c ∈ Text.decimal n, c ≠ '$' := fun c member => (decimal_chars member).2.1
  rw [← ofText_undollared plain]
  suffices own : Sealed True (Text.decimal n) from own.append fun _ => trivial
  generalize Text.decimal n = t at plain
  induction t with
  | nil => exact .nil
  | cons c t ih =>
    exact .plain (plain c (by simp)) (ih fun d member => plain d (List.mem_cons_of_mem _ member))

-- A template with a line number in it is read part by part exactly if the first part is sealed.
theorem numbered_apart (plain : ¬ lineMark <:+: first) (later : Text) (n : Nat) :
    Template.ofText (withLineNumber (Text.decimal n) (first ++ (lineMark ++ later))) =
        Template.ofText first ++ ((Text.decimal n).map .plain ++
          Template.ofText (withLineNumber (Text.decimal n) later)) ↔
      Sealed (closingBrace ∈ later) first := by
  have inner : closingBrace ∉ Text.decimal n := fun member => (decimal_chars member).2.2 rfl
  have closes : closingBrace ∈ Text.decimal n ++ withLineNumber (Text.decimal n) later ↔
      closingBrace ∈ later := by
    rw [List.mem_append, or_iff_right inner, withLineNumber_closes _ inner]
  rw [withLineNumber_mark _ plain, ← number_apart]
  constructor
  · intro apart
    obtain ⟨d, rest, digits, named⟩ := decimal_starts n
    rw [digits, List.cons_append] at apart closes
    rw [← closes]
    exact sealed_of_append named apart
  · intro own
    exact own.append closes.mp

theorem expand_numbered (plain : ¬ lineMark <:+: first)
    (own : Sealed (closingBrace ∈ later) first) (n : Nat) :
    expand p m (withLineNumber (Text.decimal n) (first ++ (lineMark ++ later))) =
      expand p m first ++ (Text.decimal n ++
        expand p m (withLineNumber (Text.decimal n) later)) := by
  have digits : ∀ c ∈ Text.decimal n, c ≠ '$' := fun c member => (decimal_chars member).2.1
  have apart := (numbered_apart plain later n).mpr own
  rw [withLineNumber_mark _ plain] at apart ⊢
  rw [← number_apart] at apart
  have behind := number_apart n (withLineNumber (Text.decimal n) later)
  rw [← ofText_undollared digits] at behind
  rw [expand_append apart, expand_append behind, expand_undollared digits]

inductive Spelled (p : Pattern) (m : Match) (digits : Text) : Text → Text → Prop where
  | last {t : Text} (plain : ¬ lineMark <:+: t) : Spelled p m digits t (expand p m t)
  | numbered {first later out : Text} (plain : ¬ lineMark <:+: first)
      (own : Sealed (closingBrace ∈ later) first) (more : Spelled p m digits later out) :
      Spelled p m digits (first ++ (lineMark ++ later)) (expand p m first ++ (digits ++ out))

theorem expand_spelled (spelled : Spelled p m (Text.decimal n) t out) :
    expand p m (withLineNumber (Text.decimal n) t) = out := by
  induction spelled with
  | last plain => rw [withLineNumber_unmarked _ plain]
  | numbered plain own more ih => rw [expand_numbered plain own, ih]

-- A name that is open in front of the number takes it in, and all that a name may hold behind it.
theorem expand_taken {front name : Text} (held : name ≠ [])
    (chars : ∀ c ∈ name, isNameChar c = true)
    (plain : ¬ lineMark <:+: front ++ '$' :: name) (own : Sealed (closingBrace ∈ later) front)
    (n : Nat) {more behind : Text}
    (parts : (withLineNumber (Text.decimal n) later).span isNameChar = (more, behind)) :
    expand p m (withLineNumber (Text.decimal n) (front ++ '$' :: name ++ (lineMark ++ later))) =
      expand p m front ++ (referenceText p m (name ++ (Text.decimal n ++ more)) ++
        expand p m behind) := by
  have inner : closingBrace ∉ Text.decimal n := fun member => (decimal_chars member).2.2 rfl
  obtain ⟨whole, named, ends⟩ := span_exact.mp parts
  have all : ∀ c ∈ name ++ (Text.decimal n ++ more), isNameChar c = true := by
    intro c member
    rcases List.mem_append.mp member with first | others
    · exact chars c first
    · rcases List.mem_append.mp others with digit | last
      · exact (decimal_chars digit).1
      · exact named c last
  have refers : Refers (name ++ (Text.decimal n ++ more) ++ behind)
      (name ++ (Text.decimal n ++ more)) behind := .named (by simp [held]) all ends
  have closed : closingBrace ∈ '$' :: (name ++ (Text.decimal n ++ more) ++ behind) →
      closingBrace ∈ later := by
    intro member
    have dollar : closingBrace ≠ '$' := by decide
    have unnamed : closingBrace ∉ name ++ (Text.decimal n ++ more) := by
      intro inside
      have other := all _ inside
      cases other
    rw [List.mem_cons, or_iff_right dollar, List.mem_append, or_iff_right unnamed] at member
    rw [← withLineNumber_closes _ inner, whole]
    exact List.mem_append_right _ member
  rw [withLineNumber_mark _ plain, whole,
    show front ++ '$' :: name ++ (Text.decimal n ++ (more ++ behind)) =
      front ++ '$' :: (name ++ (Text.decimal n ++ more) ++ behind) by simp,
    expand_append (own.append closed), expand, expand, ofText_reference refers]
  rfl

theorem title_expanded (kind : o.kind ≠ some .separator) (held : o.template ≠ []) (m : Match) :
    o.title m = expand o.pattern m (withLineNumber (number m) o.template) := by
  have full : o.template.isEmpty = false := by simpa using held
  rw [title, if_neg kind, full]
  rfl

theorem items_titled {f : Match → Text} (titles : ∀ m, o.title m = f m) (t : Text) :
    o.items t = ((o.pattern.allMatches t).filter fun m => !m.isEmpty).map fun m =>
      ⟨onOneLine (f m), m.span, o.kind⟩ := by
  rw [items, funext titles]

-- A template that asks for the line number between two parts is read part by part only if no
-- reference is left open at the end of the first. A name that is left open there takes the number
-- in, and the number is lost with it.
theorem titles_numbered (o : Outline) (kind : o.kind ≠ some .separator) (first later : Text)
    (template : o.template = first ++ (lineMark ++ later)) (plain : ¬ lineMark <:+: first) :
    (∀ n, Template.ofText (withLineNumber (Text.decimal n) o.template) =
        Template.ofText first ++ ((Text.decimal n).map .plain ++
          Template.ofText (withLineNumber (Text.decimal n) later)) ↔
      Sealed (closingBrace ∈ later) first) ∧
    (Sealed (closingBrace ∈ later) first → ∀ t,
      o.items t = ((o.pattern.allMatches t).filter fun m => !m.isEmpty).map fun m =>
        ⟨onOneLine (expand o.pattern m first ++ (number m ++
          expand o.pattern m (withLineNumber (number m) later))), m.span, o.kind⟩) ∧
    (∀ m out, Spelled o.pattern m (number m) o.template out → o.title m = out) ∧
    ∀ front name, first = front ++ '$' :: name → name ≠ [] → (∀ c ∈ name, isNameChar c = true) →
      Sealed (closingBrace ∈ later) front → ∀ m more behind,
        (withLineNumber (number m) later).span isNameChar = (more, behind) →
        o.title m = expand o.pattern m front ++
          (referenceText o.pattern m (name ++ (number m ++ more)) ++
            expand o.pattern m behind) := by
  have held : o.template ≠ [] := by simp [template, lineMark]
  refine ⟨fun n => ?_, fun own t => items_titled (fun m => ?_) t, fun m out spelled => ?_, ?_⟩
  · rw [template]
    exact numbered_apart plain later n
  · rw [title_expanded kind held, template]
    exact expand_numbered plain own _
  · rw [title_expanded kind held]
    exact expand_spelled spelled
  · rintro front name rfl some_name chars own m more behind parts
    rw [title_expanded kind held, template]
    exact expand_taken some_name chars plain own _ parts

def letter : Pattern := .ofExpr (.group 1 (.char false 'a')) []

theorem titles_numbered_braced :
    let o : Outline := ⟨letter, ['$', brace, '1', closingBrace] ++ (lineMark ++ [' ', '$', '1']), none⟩
    o.kind ≠ some .separator ∧ ¬ lineMark <:+: ['$', brace, '1', closingBrace] ∧
      Sealed (closingBrace ∈ [' ', '$', '1']) ['$', brace, '1', closingBrace] ∧
      o.items ['\r', 'a'] = [⟨['a', '2', ' ', 'a'], ⟨1, 2⟩, none⟩] := by
  intro o
  have kind : o.kind ≠ some .separator := fun same => by cases same
  have plain : ¬ lineMark <:+: ['$', brace, '1', closingBrace] := by decide
  have own : Sealed (closingBrace ∈ [' ', '$', '1']) ['$', brace, '1', closingBrace] :=
    .reference (@Template.Refers.braced ['1'] [] (by decide)) (.inl rfl) .nil
  obtain ⟨-, items, -⟩ := titles_numbered o kind _ _ rfl plain
  refine ⟨kind, plain, own, (items own _).trans ?_⟩
  decide +kernel

-- The number goes into the name of the group in front of it, and no group has that name.
theorem titles_numbered_lost :
    let o : Outline := ⟨letter, ['$', '1'] ++ (lineMark ++ []), none⟩
    ¬ lineMark <:+: ['$', '1'] ∧ ['$', '1'].getLast? ≠ some '$' ∧
      o.items ['a'] = [⟨[], ⟨0, 1⟩, none⟩] ∧
      ((o.pattern.allMatches ['a']).filter fun m => !m.isEmpty).map (fun m =>
        (⟨onOneLine (expand o.pattern m ['$', '1'] ++ (number m ++ expand o.pattern m [])), m.span,
          o.kind⟩ : OutlineItem)) = [⟨['a', '1'], ⟨0, 1⟩, none⟩] := by
  decide +kernel

end Rules.Outline

end LiveHighlight
