import LiveHighlight.Proofs.Literals
import LiveHighlight.Proofs.SweptRegions

-- A pair of delimiters that is declared a second time. The sweep keeps the first declaration; the
-- repeated rule is searched for alone beside it, and that is all it changes.

namespace LiveHighlight

namespace Rules

namespace Delimiter

variable {a b c : Delimiter}

theorem sameAs_trans (first : a.sameAs b = true) (second : b.sameAs c = true) :
    a.sameAs c = true := by
  cases a <;> cases b <;> cases c <;> simp_all [sameAs]

theorem sameAs_self (a : Delimiter) : a.sameAs a = true := by
  cases a <;> simp [sameAs]

end Delimiter

namespace Delimiters

variable {l next : Delimiters} {a b : Delimiter} {k : Category}

theorem has_iff : l.has a = true ↔ ∃ e ∈ l, e.1.sameAs a = true := List.any_eq_true

theorem has_sameAs (held : l.has a = true) (same : a.sameAs b = true) : l.has b = true := by
  obtain ⟨e, member, alike⟩ := has_iff.mp held
  exact has_iff.mpr ⟨e, member, Delimiter.sameAs_trans alike same⟩

theorem declare?_has (declared : l.declare? a k = some next) :
    next.has a = true ∧ ∀ b, l.has b = true → next.has b = true := by
  unfold declare? at declared
  split at declared
  · cases declared
  · cases declared
    refine ⟨has_iff.mpr ⟨(a, k), by simp, a.sameAs_self⟩, fun b held => ?_⟩
    obtain ⟨e, member, same⟩ := has_iff.mp held
    exact has_iff.mpr ⟨e, by simp [member], same⟩

theorem declare?_none (held : l.has a = true) : l.declare? a k = none := if_pos held

theorem has_of_refused (refused : l.declare? a k = none) : l.has a = true := by
  unfold declare? at refused
  split at refused
  · assumption
  · cases refused

end Delimiters

namespace Finder

open Pattern

variable {opening closing taken : Text} {ignoreCase multiline escapable : Bool} {c : Cursor}
  {x : Char}

theorem inLine_taken (all : List.Forall₂ (fun x y => (charSet ignoreCase x).contains y = true)
    closing taken) (kept : taken.inLine = true) : closing.inLine = true := by
  induction all with
  | nil => rfl
  | cons own others ih =>
    rename_i x y closing taken
    simp only [Text.inLine, List.all_cons, Bool.and_eq_true] at kept ⊢
    refine ⟨?_, ih kept.2⟩
    cases ends : Text.isTerminator x with
    | false => rfl
    | true =>
      rw [charSet_terminator ends own, ends] at kept
      cases kept.1

theorem find?_inLine (kept : c.rest.inLine = true) (broken : closing.inLine = false) :
    (plainPattern closing ignoreCase).find? c = none := by
  cases found : (plainPattern closing ignoreCase).find? c with
  | none => rfl
  | some m =>
    obtain ⟨here, ⟨u, -, rest, -⟩, -⟩ := find?_reached found
    obtain ⟨-, -, taken, all, behind, -⟩ := literal_exact.mp here
    rw [rest, behind, Text.inLine_append, Text.inLine_append] at kept
    rw [inLine_taken all kept.2.1] at broken
    cases broken

theorem closing?_inLine {bound : Nat} (kept : c.rest.inLine = true)
    (broken : closing.inLine = false) :
    closing? (plainPattern closing ignoreCase) escapable bound c = none := by
  cases bound with
  | zero => rfl
  | succ bound => rw [closing?, find?_inLine kept broken]

theorem afterBegin_silent (ignoreCase escapable : Bool) (broken : closing.inLine = false)
    (m : Match) :
    afterBegin (plainPattern closing ignoreCase) false escapable m = .on ∨
      ∃ d, afterBegin (plainPattern closing ignoreCase) false escapable m = .jump d [] := by
  have content : (reachOf false m).1.inLine = true := Text.lineContent_inLine _
  have inside : Text.inLine (if m.isEmpty then (reachOf false m).1.drop 1
      else (reachOf false m).1) = true := by
    split
    · exact List.all_eq_true.mpr fun y member =>
        List.all_eq_true.mp content y (List.mem_of_mem_drop member)
    · exact content
  unfold afterBegin
  cases behindBegin? m with
  | none => exact .inl rfl
  | some d =>
    refine .inr ⟨d, ?_⟩
    dsimp only
    rw [closing?_inLine inside broken]
    split
    · rfl
    · split
      · rfl
      · rfl

-- An end that holds the end of a line is never found where regions keep to their lines.
theorem beginEndFrom_silent {p : Pattern} (broken : closing.inLine = false) (bound : Nat)
    (c : Cursor) :
    beginEndFrom p (plainPattern closing ignoreCase) false escapable bound c = [] := by
  induction bound generalizing c with
  | zero => rfl
  | succ bound ih =>
    cases held : c.rest with
    | nil => simp [beginEndFrom, held]
    | cons x rest =>
      cases found : p.find? c with
      | none => simp [beginEndFrom, held, found]
      | some m =>
        rw [beginEndFrom_step bound (by simp [held]) found]
        rcases afterBegin_silent ignoreCase escapable broken m with stays | ⟨d, goes⟩
        · rw [stays]
        · rw [goes]
          exact ih d

theorem sign_noLetter (sign : Unicode.isAlphanumeric x = false) :
    (charSet ignoreCase x).contains 'a' = false := by
  rw [Bool.eq_false_iff]
  intro member
  rw [charSet_contains] at member
  have letter : x = 'a' ∨ x = 'A' := by
    split at member
    · have variants : Unicode.caseVariants 'a' = ['a', 'A'] := by decide
      rw [variants] at member
      simpa using member
    · exact .inl member.symm
  rcases letter with rfl | rfl
  · revert sign
    decide
  · revert sign
    decide

theorem literal_self (ignoreCase : Bool) (opening rest : Text) (c : Cursor)
    (parts : c.rest = opening ++ rest) :
    (plainPattern opening ignoreCase).matchAt? c = some ⟨c, c.past opening rest, []⟩ :=
  literal_exact.mpr ⟨rfl, rfl, opening,
    List.forall₂_same.mpr fun x _ => charSet_self ignoreCase x, parts, rfl⟩

theorem find?_self (opening rest : Text) (c : Cursor) (parts : c.rest = opening ++ rest) :
    (plainPattern opening ignoreCase).find? c = some ⟨c, c.past opening rest, []⟩ := by
  rw [find?_step, literal_self ignoreCase opening rest c parts]
  rfl

theorem letter_missed (held : closing ≠ []) (signs : Delimiter.isSymbol closing = true)
    (rest : c.rest = 'a' :: closing) : (plainPattern closing ignoreCase).matchAt? c = none := by
  cases found : (plainPattern closing ignoreCase).matchAt? c with
  | none => rfl
  | some m =>
    obtain ⟨-, -, u, all, parts, -⟩ := literal_exact.mp found
    obtain ⟨x, more, rfl⟩ := List.exists_cons_of_ne_nil held
    cases all with
    | cons own others =>
      rw [rest] at parts
      cases (List.cons.inj parts).1
      simp only [Delimiter.isSymbol, List.any_cons, Bool.not_eq_true', Bool.or_eq_false_iff]
        at signs
      rw [sign_noLetter signs.1] at own
      cases own

theorem closing?_heard (ignoreCase escapable : Bool) (held : closing ≠ [])
    (signs : Delimiter.isSymbol closing = true) (rest : c.rest = 'a' :: closing) (bound : Nat) :
    ∃ stop, closing? (plainPattern closing ignoreCase) escapable (bound + 1) c = some stop := by
  have found : (plainPattern closing ignoreCase).find? c =
      some ⟨c.advance 'a' closing, (c.advance 'a' closing).past closing [], []⟩ := by
    rw [find?_step, letter_missed held signs rest, Scan.next?_rest rest]
    exact find?_self closing [] (c.advance 'a' closing) (List.append_nil _).symm
  have plain : (c.advance 'a' closing).isEscaped = false := rfl
  rw [closing?, found]
  simp only [plain, Bool.and_false, Bool.false_eq_true, if_false]
  exact ⟨_, rfl⟩

-- Between two delimiters of signs a letter is found, unless the end cannot be reached.
theorem spans_heard (ignoreCase escapable : Bool) (held : opening ≠ []) (ends : closing ≠ [])
    (signs : Delimiter.isSymbol closing = true)
    (reached : multiline = true ∨ closing.inLine = true) :
    ∃ s, s ∈ (beginEnd (plainPattern opening ignoreCase) (plainPattern closing ignoreCase)
      multiline escapable).spans (.whole (opening ++ 'a' :: closing)) := by
  let start : Cursor := .start (opening ++ 'a' :: closing)
  let m : Match := ⟨start, start.past opening ('a' :: closing), []⟩
  have found : (plainPattern opening ignoreCase).find? start = some m := find?_self _ _ _ rfl
  have moved : m.isEmpty = false :=
    literal_moves held (literal_self ignoreCase opening ('a' :: closing) start rfl)
  have content : (reachOf multiline m).1 = 'a' :: closing := by
    unfold reachOf
    split
    · rfl
    · rename_i single
      have kept := reached.resolve_left single
      simp only [Text.lineContent, List.span_eq_takeWhile_dropWhile]
      refine List.takeWhile_eq_self_iff.mpr fun x member => ?_
      rcases List.mem_cons.mp member with rfl | later
      · rfl
      · exact List.all_eq_true.mp kept x later
  obtain ⟨stop, closes⟩ := closing?_heard ignoreCase escapable
    (c := m.stop.withRest ('a' :: closing)) ends signs rfl ('a' :: closing).length
  have more : start.rest ≠ [] := by simp [start, Cursor.start]
  have goes : afterBegin (plainPattern closing ignoreCase) multiline escapable m =
      .jump (stop.withRest (stop.rest ++ (reachOf multiline m).2))
        [⟨m.start.offset, stop.offset⟩] := by
    have plain : m.start.isEscaped = false := rfl
    simp only [afterBegin, behindBegin?, moved, plain, content, closes, Bool.and_false,
      Bool.false_and, Bool.false_eq_true, if_false]
  refine ⟨⟨m.start.offset, stop.offset⟩, ?_⟩
  change _ ∈ beginEndFrom _ _ _ _ _ start
  rw [beginEndFrom_step _ more found, goes]
  exact List.mem_append_left _ (List.mem_singleton.mpr rfl)

end Finder

namespace RuleSet

variable {d : Definition} {k : Category} {s next : Sorted} {rule : HighlightRule}
  {rules more : List HighlightRule} {a : Delimiter} {l l' : Delimiters}
  {finders finders' : List (Category × Finder)} {highlights : List (String × List HighlightRule)}

def Declared (l : Delimiters) (rules : List HighlightRule) : Prop :=
  ∀ r ∈ rules, ∀ a, Delimiter.ofRule? r = some a → l.has a = true

-- Nothing that was declared goes, and the single searches grow by the same, whatever they were.
structure Adds (k : Category) (rules : List HighlightRule) (s next : Sorted) : Prop where
  kept : ∀ a, s.delimiters.has a = true → next.delimiters.has a = true
  declared : Declared next.delimiters rules
  finders : ∃ g, next.finders = s.finders ++ g ∧ ∀ f,
    sortRules k { s with finders := f } rules = .ok { next with finders := f ++ g }

theorem sortRules_single (s : Sorted) : sortRules k s [rule] = sortRule k s rule := by
  unfold sortRules
  cases sortRule k s rule <;> rfl

theorem refused_adds {g : List Finder}
    (refused : (Delimiter.ofRule? rule).bind (fun d => s.delimiters.declare? d k) = none)
    (still : next.delimiters = s.delimiters) (gained : next.finders = s.finders ++ g)
    (again : ∀ f, sortRule k { s with finders := f } rule = .ok { next with finders := f ++ g }) :
    Adds k [rule] s next where
  kept _ held := still ▸ held
  declared := by
    intro r member a of_r
    cases List.mem_singleton.mp member
    rw [of_r] at refused
    rw [still]
    exact Delimiters.has_of_refused refused
  finders := ⟨g, gained, fun f => (sortRules_single _).trans (again f)⟩

theorem sortRule_adds (sorted : sortRule k s rule = .ok next) : Adds k [rule] s next := by
  unfold sortRule at sorted
  split at sorted
  · rename_i delimiters declared
    obtain ⟨made, ruled, declares⟩ := Option.bind_eq_some_iff.mp declared
    cases sorted
    obtain ⟨own, older⟩ := Delimiters.declare?_has declares
    refine ⟨older, ?_, [], (List.append_nil _).symm, fun f => ?_⟩
    · intro r member a of_r
      cases List.mem_singleton.mp member
      cases ruled.symm.trans of_r
      exact own
    · simp [sortRules_single, sortRule, declared]
  · rename_i refused
    have nothing := (List.append_nil s.finders).symm
    split at sorted
    · rename_i word
      split at sorted
      · rename_i caseless
        cases sorted
        exact refused_adds refused rfl nothing fun f => by simp [sortRule, refused, word, caseless]
      · rename_i cased
        cases sorted
        exact refused_adds refused rfl nothing fun f => by simp [sortRule, refused, word, cased]
    · rename_i phrase
      split at sorted
      · cases sorted
      · rename_i silent
        cases sorted
        exact refused_adds refused rfl nothing fun f => by simp [sortRule, refused, phrase, silent]
      · rename_i found
        cases sorted
        exact refused_adds refused rfl rfl fun f => by simp [sortRule, refused, phrase, found]

theorem sortRules_append (s : Sorted) : sortRules k s (rules ++ more) =
    match sortRules k s rules with
    | .error e => .error e
    | .ok next => sortRules k next more := by
  induction rules generalizing s with
  | nil => rfl
  | cons r rest ih =>
    simp only [List.cons_append, sortRules]
    cases sortRule k s r with
    | error e => rfl
    | ok middle => exact ih middle

theorem sortRules_adds (sorted : sortRules k s rules = .ok next) : Adds k rules s next := by
  induction rules generalizing s with
  | nil =>
    cases sorted
    exact ⟨fun _ held => held, by simp [Declared], [], (List.append_nil _).symm,
      fun f => by simp [sortRules]⟩
  | cons r rest ih =>
    unfold sortRules at sorted
    split at sorted
    · cases sorted
    · rename_i middle here
      have first := sortRule_adds here
      have others := ih sorted
      obtain ⟨g, gained, again⟩ := first.finders
      obtain ⟨g', gained', again'⟩ := others.finders
      refine ⟨fun a held => others.kept a (first.kept a held), ?_, g ++ g', ?_, fun f => ?_⟩
      · intro other member a of_other
        rcases List.mem_cons.mp member with rfl | later
        · exact others.kept a (first.declared other (by simp) a of_other)
        · exact others.declared other later a of_other
      · rw [gained', gained, List.append_assoc]
      · have here' := again f
        rw [sortRules_single] at here'
        rw [sortRules, here']
        simp only
        rw [again', List.append_assoc]

structure AddsAll (highlights : List (String × List HighlightRule)) (l l' : Delimiters)
    (finders finders' : List (Category × Finder)) : Prop where
  kept : ∀ a, l.has a = true → l'.has a = true
  declared : Declared l' (highlights.flatMap (·.2))
  finders : ∃ g, finders' = finders ++ g ∧ ∀ f,
    sortCategories l f highlights = .ok (l', f ++ g)

theorem sortCategories_adds (sorted : sortCategories l finders highlights = .ok (l', finders')) :
    AddsAll highlights l l' finders finders' := by
  induction highlights generalizing l finders with
  | nil =>
    cases sorted
    exact ⟨fun _ held => held, by simp [Declared], [], (List.append_nil _).symm,
      fun f => by simp [sortCategories]⟩
  | cons first rest ih =>
    obtain ⟨name, rules⟩ := first
    unfold sortCategories at sorted
    split at sorted
    · cases sorted
    · rename_i k named
      split at sorted
      · cases sorted
      · rename_i s ruled
        have own := sortRules_adds ruled
        have others := ih sorted
        obtain ⟨g, gained, again⟩ := others.finders
        refine ⟨fun a held => others.kept a (own.kept a held), ?_, s.all.map (k, ·) ++ g, ?_,
          fun f => ?_⟩
        · intro r member a of_r
          rw [List.flatMap_cons] at member
          rcases List.mem_append.mp member with here | later
          · exact others.kept a (own.declared r here a of_r)
          · exact others.declared r later a of_r
        · rw [gained, List.append_assoc]
        · simp only [sortCategories, named, ruled]
          rw [again, List.append_assoc]

theorem sortCategories_append (l : Delimiters) (finders : List (Category × Finder))
    {others : List (String × List HighlightRule)} :
    sortCategories l finders (highlights ++ others) =
      match sortCategories l finders highlights with
      | .error e => .error e
      | .ok (l', finders') => sortCategories l' finders' others := by
  induction highlights generalizing l finders with
  | nil => rfl
  | cons first rest ih =>
    obtain ⟨name, rules⟩ := first
    simp only [List.cons_append, sortCategories]
    cases Category.ofName? name with
    | none => rfl
    | some k =>
      simp only
      cases sortRules k ⟨l, [], [], []⟩ rules with
      | error e => rfl
      | ok s => exact ih _ _

theorem pair_alone (paired : Delimiter.ofRule? rule = some a) : ∃ closing,
    rule.end? = some closing ∧ rule.beginString ≠ [] ∧ closing ≠ [] ∧
      Delimiter.isSymbol closing = true ∧ rule.isWord = false ∧
      Finder.ofRule? rule = .ok (some (.beginEnd
        (Finder.plainPattern rule.beginString rule.ignoreCase)
        (Finder.plainPattern closing rule.ignoreCase) rule.isMultiline true)) := by
  unfold Delimiter.ofRule? at paired
  split at paired
  · cases paired
  · rename_i plain
    simp only [Bool.or_eq_true, not_or, Bool.not_eq_true] at plain
    split at paired
    · cases paired
    · rename_i closing ends
      split at paired
      · rename_i signs
        cases paired
        obtain ⟨written, held⟩ := Option.filter_eq_some_iff.mp ends
        refine ⟨closing, ends, by simpa using plain.2, by simpa using held,
          (Bool.and_eq_true_iff.mp signs).2, by simp [HighlightRule.isWord, written], ?_⟩
        simp [Finder.ofRule?, plain, ends]
      · cases paired

variable {name : String} {front back : List (String × List HighlightRule)}
  {before after : List HighlightRule} {e : Finder}

theorem sortRule_repeated (paired : Delimiter.ofRule? rule = some a)
    (searched : Finder.ofRule? rule = .ok (some e)) (held : s.delimiters.has a = true) :
    sortRule k s rule = .ok { s with finders := s.finders ++ [e] } := by
  obtain ⟨-, -, -, -, -, phrase, -⟩ := pair_alone paired
  simp [sortRule, paired, Delimiters.declare?_none held, phrase, searched]

theorem sortRules_repeated (paired : Delimiter.ofRule? rule = some a)
    (searched : Finder.ofRule? rule = .ok (some e))
    (held : ∀ m, sortRules k s before = .ok m → m.delimiters.has a = true)
    (sorted : sortRules k s (before ++ rule :: after) = .ok next) :
    ∃ x y, next.finders = x ++ e :: y ∧
      sortRules k s (before ++ after) = .ok { next with finders := x ++ y } := by
  rw [sortRules_append] at sorted ⊢
  cases first : sortRules k s before with
  | error refused =>
    rw [first] at sorted
    cases sorted
  | ok m =>
    rw [first] at sorted
    simp only [sortRules, sortRule_repeated paired searched (held m first)] at sorted ⊢
    obtain ⟨g, gained, again⟩ := (sortRules_adds sorted).finders
    exact ⟨m.finders, g, by simp [gained], again m.finders⟩

theorem sortCategories_repeated (paired : Delimiter.ofRule? rule = some a)
    (searched : Finder.ofRule? rule = .ok (some e))
    (earlier : ∃ other ∈ front.flatMap (·.2) ++ before, ∃ b,
      Delimiter.ofRule? other = some b ∧ b.sameAs a = true)
    (sorted : sortCategories [] [] (front ++ (name, before ++ rule :: after) :: back) =
      .ok (l, finders)) :
    ∃ k x y, Category.ofName? name = some k ∧ finders = x ++ (k, e) :: y ∧
      sortCategories [] [] (front ++ (name, before ++ after) :: back) = .ok (l, x ++ y) := by
  rw [sortCategories_append] at sorted ⊢
  cases fronts : sortCategories [] [] front with
  | error refused =>
    rw [fronts] at sorted
    cases sorted
  | ok result =>
    obtain ⟨declared, earliest⟩ := result
    rw [fronts] at sorted
    simp only [sortCategories] at sorted ⊢
    cases named : Category.ofName? name with
    | none =>
      rw [named] at sorted
      cases sorted
    | some k =>
      rw [named] at sorted
      simp only at sorted
      cases ruled : sortRules k ⟨declared, [], [], []⟩ (before ++ rule :: after) with
      | error refused =>
        rw [ruled] at sorted
        cases sorted
      | ok m =>
        rw [ruled] at sorted
        have held : ∀ middle, sortRules k ⟨declared, [], [], []⟩ before = .ok middle →
            middle.delimiters.has a = true := by
          intro middle first
          have adds := sortRules_adds first
          obtain ⟨other, member, b, of_other, same⟩ := earlier
          refine Delimiters.has_sameAs ?_ same
          rcases List.mem_append.mp member with sooner | here
          · exact adds.kept b ((sortCategories_adds fronts).declared other sooner b of_other)
          · exact adds.declared other here b of_other
        obtain ⟨x, y, parts, without⟩ := sortRules_repeated paired searched held ruled
        obtain ⟨g, gained, again⟩ := (sortCategories_adds sorted).finders
        refine ⟨k, earliest ++ x.map (k, ·),
          (y ++ (Finder.ofWords? m.words false).toList ++
            (Finder.ofWords? m.caselessWords true).toList).map (k, ·) ++ g, rfl, ?_, ?_⟩
        · rw [gained]
          simp [Sorted.all, parts]
        · simp only [without]
          rw [again]
          simp [Sorted.all]

-- One definition is the other without a rule whose pair of delimiters some rule before declared.
inductive Drops : Definition → Definition → String → HighlightRule → Prop where
  | rule {d : Definition} {front back : List (String × List HighlightRule)} {name : String}
      {before after : List HighlightRule} {rule other : HighlightRule} {a b : Delimiter}
      (listed : d.highlights = front ++ (name, before ++ rule :: after) :: back)
      (paired : Delimiter.ofRule? rule = some a)
      (earlier : other ∈ front.flatMap (·.2) ++ before)
      (taken : Delimiter.ofRule? other = some b) (same : b.sameAs a = true) :
      Drops d { d with highlights := front ++ (name, before ++ after) :: back } name rule

theorem Drops.paired {d' : Definition} (drops : Drops d d' name rule) :
    ∃ a, Delimiter.ofRule? rule = some a := by
  cases drops with
  | rule listed paired earlier taken same => exact ⟨_, paired⟩

structure Beside (k : Category) (e : Finder) (r r' : RuleSet) : Prop where
  kind : r.kind = r'.kind
  delimiters : r.delimiters = r'.delimiters
  outlines : r.outlines = r'.outlines
  finders : ∃ x y, r.finders = x ++ (k, e) :: y ∧ r'.finders = x ++ y
  spansLines : r.spansLines = (r'.spansLines || e.spansLines)

variable {d' : Definition} {r r' : RuleSet} {t : Text} {w : Window}

theorem drops_beside (drops : Drops d d' name rule) (made : ofDefinition d = .ok r)
    (searched : Finder.ofRule? rule = .ok (some e)) :
    ∃ k r', Category.ofName? name = some k ∧ ofDefinition d' = .ok r' ∧ Beside k e r r' := by
  cases drops with
  | rule listed paired earlier taken same =>
    unfold ofDefinition at made
    split at made
    · cases made
    · rename_i declared finders sorted
      rw [listed] at sorted
      obtain ⟨k, x, y, named, parts, without⟩ :=
        sortCategories_repeated paired searched ⟨_, earlier, _, taken, same⟩ sorted
      cases outlined : readOutlines d.outlines with
      | error refused =>
        rw [outlined] at made
        cases made
      | ok outlines =>
        rw [outlined] at made
        cases made
        refine ⟨k, ⟨d.kind, x ++ y, withComments declared d, outlines,
          (x ++ y).any (fun e => e.2.spansLines) || (withComments declared d).spansLines⟩,
          named, ?_, rfl, rfl, rfl, ⟨x, y, parts, rfl⟩, ?_⟩
        · rw [ofDefinition]
          simp only [without, outlined, Except.map]
          rfl
        · simp only [parts, List.any_append, List.any_cons]
          ac_rfl

theorem Beside.found_perm (beside : Beside k e r r') (w : Window) :
    (r.found w).Perm ((e.spans w).map (k, ·) ++ r'.found w) := by
  obtain ⟨x, y, parts, parts'⟩ := beside.finders
  simp only [found, parts, parts', beside.delimiters, List.flatMap_append, List.flatMap_cons,
    List.append_assoc]
  exact List.perm_append_comm_assoc _ _ _

theorem Beside.captures_silent (beside : Beside k e r r') (single : e.spansLines = false)
    (silent : ∀ w, e.spans w = []) (t : Text) (wanted : Span) :
    r.captures? t wanted = r'.captures? t wanted := by
  obtain ⟨x, y, parts, parts'⟩ := beside.finders
  have lines : r.spansLines = r'.spansLines := by rw [beside.spansLines, single, Bool.or_false]
  have same : r.found = r'.found := by
    funext w
    simp [found, parts, parts', beside.delimiters, silent w]
  rw [captures?, captures?, scanSpan, scanSpan, lines, same]

theorem Beside.captures_heard {found : Span} (beside : Beside k e r r')
    (heard : found ∈ e.spans (.whole t)) :
    r.captures? t ⟨0, Text.size t⟩ ≠ r'.captures? t ⟨0, Text.size t⟩ := by
  rw [captures_every, captures_every]
  intro same
  have lengths := congrArg List.length (Option.some.inj same)
  simp only [List.length_map] at lengths
  have perm := (beside.found_perm (.whole t)).filter fun f => f.2.overlaps ⟨0, Text.size t⟩
  have counts := perm.length_eq
  rw [List.filter_append, List.length_append] at counts
  have own : (k, found) ∈ ((e.spans (.whole t)).map (k, ·)).filter
      fun f => f.2.overlaps ⟨0, Text.size t⟩ :=
    List.mem_filter.mpr ⟨List.mem_map_of_mem heard, whole_overlaps heard⟩
  have positive := List.length_pos_of_mem own
  unfold every at lengths
  omega

-- A rule whose pair was declared before adds its own search and changes nothing else. That makes no
-- difference to any text exactly if its regions stay on their lines and its end delimiter does not.
theorem repeated_pair (drops : Drops d d' name rule) (made : ofDefinition d = .ok r) :
    ∃ k e r', Category.ofName? name = some k ∧ Finder.ofRule? rule = .ok (some e) ∧
      ofDefinition d' = .ok r' ∧ Beside k e r r' ∧
      (∀ w, (r.found w).Perm ((e.spans w).map (k, ·) ++ r'.found w)) ∧
      ((∀ t wanted, r.captures? t wanted = r'.captures? t wanted) ↔
        rule.isMultiline = false ∧
          ∃ closing, rule.end? = some closing ∧ closing.inLine = false) := by
  obtain ⟨a, paired⟩ := drops.paired
  obtain ⟨closing, ends, held, more, signs, -, searched⟩ := pair_alone paired
  obtain ⟨k, r', named, made', beside⟩ := drops_beside drops made searched
  refine ⟨k, _, r', named, searched, made', beside, beside.found_perm, ?_, ?_⟩
  · intro agrees
    by_cases reached : rule.isMultiline = true ∨ closing.inLine = true
    · obtain ⟨s, heard⟩ := Finder.spans_heard rule.ignoreCase true held more signs reached
      exact absurd (agrees _ _) (beside.captures_heard heard)
    · simp only [not_or, Bool.not_eq_true] at reached
      exact ⟨reached.1, closing, ends, reached.2⟩
  · rintro ⟨single, other, ends', broken⟩
    cases ends.symm.trans ends'
    refine beside.captures_silent single fun w => ?_
    rw [single]
    exact Finder.beginEndFrom_silent broken _ _

-- The end of a line belongs to the end delimiter, so the rule written a second time is never heard.
theorem repeated_pair_lines :
    let rule : HighlightRule := { beginString := ['>'], endString := some ['\n'] }
    let d : Definition := { highlights := [("comments", [rule, rule])] }
    let d' : Definition := { highlights := [("comments", [rule])] }
    Drops d d' "comments" rule ∧ ∃ r r', ofDefinition d = .ok r ∧ ofDefinition d' = .ok r' ∧
      ∀ t wanted, r.captures? t wanted = r'.captures? t wanted := by
  intro rule d d'
  have listed : d.highlights = [] ++ ("comments", [rule] ++ rule :: []) :: [] := rfl
  have earlier : rule ∈ ([] : List (String × List HighlightRule)).flatMap (·.2) ++ [rule] := by
    simp
  have drops : Drops d d' "comments" rule := .rule listed rfl earlier rfl rfl
  cases made : ofDefinition d with
  | error refused => cases made
  | ok r =>
    obtain ⟨k, e, r', -, -, made', -, -, agrees⟩ := repeated_pair drops made
    exact ⟨drops, r, r', rfl, made', agrees.mpr ⟨rfl, ['\n'], rfl, rfl⟩⟩

-- Quotes of characters that are quotes of strings, too.
theorem repeated_pair_quotes : ¬ ∀ (d d' : Definition) (name : String) (rule : HighlightRule)
    (r : RuleSet), Drops d d' name rule → ofDefinition d = .ok r →
    ∃ r', ofDefinition d' = .ok r' ∧ ∀ t wanted, r.captures? t wanted = r'.captures? t wanted := by
  intro claim
  let quote : HighlightRule := { beginString := ['\''], endString := some ['\''] }
  let d : Definition :=
    { highlights := [("characters", [quote]), ("strings", [quote])]
      inlines := [⟨['/', '/'], false⟩] }
  let d' : Definition :=
    { highlights := [("characters", [quote]), ("strings", [])]
      inlines := [⟨['/', '/'], false⟩] }
  have listed : d.highlights =
      [("characters", [quote])] ++ ("strings", [] ++ quote :: []) :: [] := rfl
  have earlier : quote ∈ [("characters", [quote])].flatMap (·.2) ++ [] := by simp
  have drops : Drops d d' "strings" quote := .rule listed rfl earlier rfl rfl
  cases made : ofDefinition d with
  | error refused => cases made
  | ok r =>
    obtain ⟨r', made', agrees⟩ := claim d d' "strings" quote r drops made
    have same := agrees ['\'', 'a', '\'', ' ', '/', '/', ' ', '\'', 'b', '\''] ⟨0, 10⟩
    cases made
    cases made'
    revert same
    decide

end RuleSet

end Rules

end LiveHighlight
