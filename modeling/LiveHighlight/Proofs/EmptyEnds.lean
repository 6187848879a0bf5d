import Mathlib.Data.List.Sort
import LiveHighlight.Proofs.GuardedWords
import LiveHighlight.Proofs.RepeatedPairs

-- Plain rules whose end is written and empty. Such a rule is no word, since an end is written, and
-- no pair, since the end says nothing, so it is passed over.

namespace LiveHighlight

namespace HighlightRule

variable {r : HighlightRule}

def endless (r : HighlightRule) : HighlightRule := { r with endString := r.end? }

-- A plain rule with an empty end.
def isMute (r : HighlightRule) : Bool := !r.isPattern && r.endString == some []

theorem end?_none : r.end? = none ↔ r.endString = none ∨ r.endString = some [] := by
  rw [end?]
  cases r.endString with
  | none => simp
  | some t => cases t <;> simp [Option.filter]

@[simp] theorem endless_end? (r : HighlightRule) : r.endless.end? = r.end? := by
  simp [endless, end?, Option.filter_filter]

theorem endless_isWord (r : HighlightRule) : r.endless.isWord = (r.isWord || r.isMute) := by
  rw [Bool.eq_iff_iff]
  simp only [isWord, isMute, endless, Bool.or_eq_true, Bool.and_eq_true,
    Option.isNone_iff_eq_none, beq_iff_eq, end?_none]
  exact and_or_left

theorem mute_noWord (mute : r.isMute = true) : r.isWord = false := by
  simp only [isMute, Bool.and_eq_true, beq_iff_eq] at mute
  simp [isWord, mute.2]

end HighlightRule

namespace Definition

def endless (d : Definition) : Definition :=
  { d with highlights := d.highlights.map fun c => (c.1, c.2.map (·.endless)) }

def heard (d : Definition) : Definition :=
  { d with highlights := d.highlights.map fun c => (c.1, c.2.filter fun r => !r.isMute) }

end Definition

namespace Rules

namespace Finder

variable {a b v : Text} {l words others : List Text}

theorem textLe_antisymm (first : textLe a b = true) (second : textLe b a = true) : a = b := by
  induction a generalizing b with
  | nil =>
    cases b with
    | nil => rfl
    | cons y b => cases second
  | cons x a ih =>
    cases b with
    | nil => cases first
    | cons y b =>
      simp only [textLe, Bool.or_eq_true, Bool.and_eq_true, decide_eq_true_eq, beq_iff_eq]
        at first second
      rcases first with less | ⟨rfl, within⟩
      · rcases second with more | ⟨rfl, -⟩
        · exact absurd more (Char.lt_asymm less)
        · exact absurd less (Char.lt_irrefl _)
      · rcases second with more | ⟨-, onward⟩
        · exact absurd more (Char.lt_irrefl _)
        · rw [ih within onward]

theorem longerFirst_antisymm (first : longerFirst a b = true) (second : longerFirst b a = true) :
    a = b := by
  rw [longerFirst_exact] at first second
  obtain ⟨-, within⟩ := first.resolve_left (by omega)
  obtain ⟨-, onward⟩ := second.resolve_left (by omega)
  exact textLe_antisymm within onward

def Before (a b : Text) : Prop := longerFirst a b = true ∧ a ≠ b

instance : Std.Irrefl Before := ⟨fun _ before => before.2 rfl⟩

instance : Std.Antisymm Before := ⟨fun _ _ first second => longerFirst_antisymm first.1 second.1⟩

theorem dropRepeats_before (sorted : l.Pairwise (longerFirst · ·)) :
    (dropRepeats l).Pairwise Before := by
  induction l with
  | nil => exact .nil
  | cons w rest ih =>
    obtain ⟨first, others⟩ := List.pairwise_cons.mp sorted
    have kept := ih others
    have listed : ∀ u ∈ dropRepeats rest, longerFirst w u = true := fun u member =>
      first u (mem_dropRepeats.mp member)
    unfold dropRepeats
    split
    · exact List.pairwise_singleton _ _
    · rename_i v more same
      rw [same] at kept listed
      split
      · exact kept
      · rename_i other
        refine .cons (fun u member => ⟨listed u member, ?_⟩) kept
        rintro rfl
        rcases List.mem_cons.mp member with here | later
        · exact other here
        · exact other (longerFirst_antisymm (listed v (by simp))
            ((List.pairwise_cons.mp kept).1 w later).1)

theorem arrangeWords_ext (same : ∀ v, v ∈ arrangeWords words ↔ v ∈ arrangeWords others) :
    arrangeWords words = arrangeWords others := by
  have sorted (l : List Text) : (arrangeWords l).Pairwise Before :=
    dropRepeats_before (Order.sort_sorted longerFirst_total longerFirst_trans _)
  exact List.Pairwise.eq_of_mem_iff (sorted words) (sorted others) same

theorem ofWords?_arranged (ignoreCase : Bool) (same : arrangeWords words = arrangeWords others) :
    ofWords? words ignoreCase = ofWords? others ignoreCase := by
  unfold ofWords?
  rw [same]

theorem ofWords?_lines {ignoreCase : Bool} :
    ∀ e ∈ (ofWords? words ignoreCase).toList, e.spansLines = false := by
  intro e member
  unfold ofWords? at member
  split at member
  · cases member
  · cases List.mem_singleton.mp member
    rfl

end Finder

def wordsOf (ignoreCase : Bool) (rules : List HighlightRule) : List Text :=
  (rules.filter fun r => r.isWord && r.ignoreCase == ignoreCase).map (·.beginString)

def wordSearches (rules : List HighlightRule) : List Finder :=
  (Finder.ofWords? (wordsOf false rules) false).toList ++
    (Finder.ofWords? (wordsOf true rules) true).toList

-- Every mute rule that says something is a word of the same rules, blanks around it aside.
def Spoken (ignoreCase : Bool) (rules : List HighlightRule) : Prop :=
  ∀ r ∈ rules, r.isMute = true → r.ignoreCase = ignoreCase → Unicode.trim r.beginString ≠ [] →
    ∃ w ∈ wordsOf ignoreCase rules, Unicode.trim w = Unicode.trim r.beginString

variable {ignoreCase : Bool} {rules more : List HighlightRule} {r : HighlightRule} {v w : Text}

theorem mem_wordsOf : w ∈ wordsOf ignoreCase rules ↔
    ∃ r ∈ rules, r.isWord = true ∧ r.ignoreCase = ignoreCase ∧ r.beginString = w := by
  simp [wordsOf, and_assoc]

theorem wordsOf_append (ignoreCase : Bool) (rules more : List HighlightRule) : wordsOf ignoreCase (rules ++ more) =
    wordsOf ignoreCase rules ++ wordsOf ignoreCase more := by
  rw [wordsOf, List.filter_append, List.map_append]
  rfl

theorem mem_wordsOf_endless : w ∈ wordsOf ignoreCase (rules.map (·.endless)) ↔
    ∃ r ∈ rules, (r.isWord = true ∨ r.isMute = true) ∧ r.ignoreCase = ignoreCase ∧
      r.beginString = w := by
  rw [mem_wordsOf]
  simp only [List.mem_map, exists_exists_and_eq_and, HighlightRule.endless_isWord,
    Bool.or_eq_true]
  rfl

theorem words_kept (member : w ∈ wordsOf ignoreCase rules) :
    w ∈ wordsOf ignoreCase (rules.map (·.endless)) := by
  obtain ⟨r, listed, word, heeds, begins⟩ := mem_wordsOf.mp member
  exact mem_wordsOf_endless.mpr ⟨r, listed, .inl word, heeds, begins⟩

-- The arranged words stay the same exactly if the mute rules have nothing to add.
theorem arrangeWords_spoken :
    Finder.arrangeWords (wordsOf ignoreCase (rules.map (·.endless))) =
      Finder.arrangeWords (wordsOf ignoreCase rules) ↔ Spoken ignoreCase rules := by
  constructor
  · intro same r listed mute heeds held
    have own : Unicode.trim r.beginString ∈
        Finder.arrangeWords (wordsOf ignoreCase (rules.map (·.endless))) :=
      Finder.mem_arrangeWords.mpr
        ⟨held, _, mem_wordsOf_endless.mpr ⟨r, listed, .inr mute, heeds, rfl⟩, rfl⟩
    rw [same] at own
    exact (Finder.mem_arrangeWords.mp own).2
  · intro spoken
    refine Finder.arrangeWords_ext fun v => ?_
    rw [Finder.mem_arrangeWords, Finder.mem_arrangeWords, and_congr_right_iff]
    intro held
    constructor
    · rintro ⟨w, member, rfl⟩
      obtain ⟨r, listed, word | mute, heeds, rfl⟩ := mem_wordsOf_endless.mp member
      · exact ⟨_, mem_wordsOf.mpr ⟨r, listed, word, heeds, rfl⟩, rfl⟩
      · exact spoken r listed mute heeds held
    · rintro ⟨w, member, rfl⟩
      exact ⟨w, words_kept member, rfl⟩

namespace RuleSet

variable {d : Definition} {s next : Sorted} {k : Category} {l l' : Delimiters}
  {finders finders' : List (Category × Finder)} {highlights : List (String × List HighlightRule)}

theorem ofRule?_endless (r : HighlightRule) :
    Delimiter.ofRule? r.endless = Delimiter.ofRule? r ∧
      Finder.ofRule? r.endless = Finder.ofRule? r := by
  simp only [Delimiter.ofRule?, Finder.ofRule?, HighlightRule.endless_end?]
  exact ⟨rfl, rfl⟩

theorem ofRule?_plain (plain : r.isPattern = false) (nothing : r.end? = none) :
    Delimiter.ofRule? r = none ∧ Finder.ofRule? r = .ok none := by
  simp [Delimiter.ofRule?, Finder.ofRule?, plain, nothing]

theorem sortRule_word (word : r.isWord = true) (s : Sorted) : sortRule k s r = .ok { s with
    words := s.words ++ wordsOf false [r], caselessWords := s.caselessWords ++ wordsOf true [r] } := by
  have alone := word_alone word
  cases heeds : r.ignoreCase <;> simp [sortRule, alone, word, heeds, wordsOf]

theorem sortRule_mute (mute : r.isMute = true) (s : Sorted) : sortRule k s r = .ok s := by
  obtain ⟨plain, ends⟩ : r.isPattern = false ∧ r.endString = some [] := by
    simpa [HighlightRule.isMute] using mute
  have alone := ofRule?_plain plain (HighlightRule.end?_none.mpr (.inr ends))
  simp [sortRule, alone, HighlightRule.mute_noWord mute]

theorem sortRule_endless (voiced : r.isMute = false) (s : Sorted) :
    sortRule k s r.endless = sortRule k s r := by
  have same : r.endless.isWord = r.isWord := by rw [r.endless_isWord, voiced, Bool.or_false]
  obtain ⟨declares, searches⟩ := ofRule?_endless r
  simp only [sortRule, declares, searches, same]
  rfl

theorem sortRule_phrase (phrase : r.isWord = false) (sorted : sortRule k s r = .ok next) :
    next.words = s.words ∧ next.caselessWords = s.caselessWords ∧ ∀ words caseless,
      sortRule k { s with words := words, caselessWords := caseless } r =
        .ok { next with words := words, caselessWords := caseless } := by
  unfold sortRule at sorted
  split at sorted
  · rename_i declared
    cases sorted
    exact ⟨rfl, rfl, fun _ _ => by simp [sortRule, declared]⟩
  · rename_i refused
    rw [phrase, if_neg Bool.false_ne_true] at sorted
    split at sorted
    · cases sorted
    · rename_i silent
      cases sorted
      exact ⟨rfl, rfl, fun _ _ => by simp [sortRule, refused, phrase, silent]⟩
    · rename_i found
      cases sorted
      exact ⟨rfl, rfl, fun _ _ => by simp [sortRule, refused, phrase, found]⟩

theorem ofRule?_silent (begins : r.beginString ≠ []) (silent : Finder.ofRule? r = .ok none) :
    r.isPattern = false ∧ r.end? = none := by
  unfold Finder.ofRule? at silent
  split at silent
  · simp_all
  · split at silent
    · split at silent
      · cases silent
      · split at silent <;> cases silent
    · cases read : readPattern r.beginString r.ignoreCase r.isMultiline <;> rw [read] at silent <;>
        cases silent
    · cases silent
    · rename_i plain nothing
      exact ⟨plain, nothing⟩

def Sorted.entries (s : Sorted) : Nat :=
  s.delimiters.length + s.words.length + s.caselessWords.length + s.finders.length

theorem sortRule_claims (begins : r.beginString ≠ []) (voiced : r.isMute = false)
    (sorted : sortRule k s r = .ok next) : next.entries = s.entries + 1 := by
  unfold sortRule at sorted
  split at sorted
  · rename_i declared
    obtain ⟨a, -, declares⟩ := Option.bind_eq_some_iff.mp declared
    unfold Delimiters.declare? at declares
    split at declares
    · cases declares
    · cases declares
      cases sorted
      simp only [Sorted.entries, List.length_append, List.length_singleton]
      omega
  · split at sorted
    · split at sorted <;> cases sorted <;>
        simp only [Sorted.entries, List.length_append, List.length_singleton] <;> omega
    · rename_i phrase
      split at sorted
      · cases sorted
      · rename_i silent
        obtain ⟨plain, nothing⟩ := ofRule?_silent begins silent
        rcases HighlightRule.end?_none.mp nothing with absent | empty
        · exact absurd (by simp [HighlightRule.isWord, plain, absent]) phrase
        · have mute : r.isMute = true := by simp [HighlightRule.isMute, plain, empty]
          rw [mute] at voiced
          cases voiced
      · cases sorted
        simp only [Sorted.entries, List.length_append, List.length_singleton]
        omega

-- What rules come to beside their words, with and without their empty ends and their mute rules.
structure Gathers (k : Category) (rules : List HighlightRule) (s next : Sorted) : Prop where
  words : next.words = s.words ++ wordsOf false rules
  caselessWords : next.caselessWords = s.caselessWords ++ wordsOf true rules
  heard : sortRules k s (rules.filter fun r => !r.isMute) = .ok next
  endless : ∀ words caseless,
    sortRules k { s with words := words, caselessWords := caseless } (rules.map (·.endless)) =
      .ok { next with
        words := words ++ wordsOf false (rules.map (·.endless))
        caselessWords := caseless ++ wordsOf true (rules.map (·.endless)) }

theorem wordsOf_phrase (phrase : r.isWord = false) : wordsOf ignoreCase [r] = [] := by
  simp [wordsOf, phrase]

theorem sortRule_gathers (sorted : sortRule k s r = .ok next) : Gathers k [r] s next := by
  cases mute : r.isMute with
  | true =>
    have phrase := HighlightRule.mute_noWord mute
    have word : r.endless.isWord = true := by rw [r.endless_isWord, mute, Bool.or_true]
    cases (sortRule_mute mute s).symm.trans sorted
    refine ⟨?_, ?_, ?_, fun words caseless => ?_⟩
    · rw [wordsOf_phrase phrase, List.append_nil]
    · rw [wordsOf_phrase phrase, List.append_nil]
    · simp [mute, sortRules]
    · rw [List.map_singleton, sortRules_single, sortRule_word word]
  | false =>
    have heard : sortRules k s ([r].filter fun r => !r.isMute) = .ok next := by
      simp [mute, sortRules, sorted]
    cases word : r.isWord with
    | true =>
      have word' : r.endless.isWord = true := by rw [r.endless_isWord, word, Bool.true_or]
      cases (sortRule_word word s).symm.trans sorted
      refine ⟨rfl, rfl, heard, fun words caseless => ?_⟩
      rw [List.map_singleton, sortRules_single, sortRule_word word']
    | false =>
      have phrase' : r.endless.isWord = false := by rw [r.endless_isWord, word, mute, Bool.or_self]
      obtain ⟨words, caselessWords, again⟩ := sortRule_phrase word sorted
      refine ⟨?_, ?_, heard, fun words caseless => ?_⟩
      · rw [wordsOf_phrase word, List.append_nil, words]
      · rw [wordsOf_phrase word, List.append_nil, caselessWords]
      · rw [List.map_singleton, sortRules_single, sortRule_endless mute, again,
          wordsOf_phrase phrase', wordsOf_phrase phrase', List.append_nil, List.append_nil]

theorem sortRules_gathers (sorted : sortRules k s rules = .ok next) : Gathers k rules s next := by
  induction rules generalizing s with
  | nil =>
    cases sorted
    exact ⟨(List.append_nil _).symm, (List.append_nil _).symm, rfl, fun words caseless => by
      simp [sortRules, wordsOf]⟩
  | cons r rest ih =>
    unfold sortRules at sorted
    split at sorted
    · cases sorted
    · rename_i middle here
      have first := sortRule_gathers here
      have others := ih sorted
      have parts (ignoreCase : Bool) := wordsOf_append ignoreCase [r] rest
      have parts' (ignoreCase : Bool) :=
        wordsOf_append ignoreCase ([r].map (·.endless)) (rest.map (·.endless))
      refine ⟨?_, ?_, ?_, fun words caseless => ?_⟩
      · rw [others.words, first.words, List.append_assoc, ← parts]
        rfl
      · rw [others.caselessWords, first.caselessWords, List.append_assoc, ← parts]
        rfl
      · rw [← List.singleton_append, List.filter_append, sortRules_append, first.heard]
        exact others.heard
      · rw [← List.singleton_append, List.map_append, sortRules_append, first.endless]
        simp only [others.endless, parts', List.append_assoc]

-- The searches of categories, without and with the words that the mute rules add.
inductive Wordier : List (String × List HighlightRule) → List (Category × Finder) →
    List (Category × Finder) → Prop where
  | nil : Wordier [] [] []
  | cons {name : String} {k : Category} {rules : List HighlightRule}
      {rest : List (String × List HighlightRule)} {g g' : List (Category × Finder)}
      (named : Category.ofName? name = some k) (singles : List Finder) (others : Wordier rest g g') :
      Wordier ((name, rules) :: rest) ((singles ++ wordSearches rules).map (k, ·) ++ g)
        ((singles ++ wordSearches (rules.map (·.endless))).map (k, ·) ++ g')

theorem sortCategories_wordier (sorted : sortCategories l finders highlights = .ok (l', finders')) :
    sortCategories l finders
        (highlights.map fun c => (c.1, c.2.filter fun r => !r.isMute)) = .ok (l', finders') ∧
      ∃ g g', finders' = finders ++ g ∧ Wordier highlights g g' ∧ ∀ f, sortCategories l f
        (highlights.map fun c => (c.1, c.2.map (·.endless))) = .ok (l', f ++ g') := by
  induction highlights generalizing l finders with
  | nil =>
    cases sorted
    exact ⟨rfl, [], [], (List.append_nil _).symm, .nil, fun f => by simp [sortCategories]⟩
  | cons first rest ih =>
    obtain ⟨name, rules⟩ := first
    unfold sortCategories at sorted
    split at sorted
    · cases sorted
    · rename_i k named
      split at sorted
      · cases sorted
      · rename_i s ruled
        have own := sortRules_gathers ruled
        obtain ⟨heard, g, g', gained, others, again⟩ := ih sorted
        refine ⟨?_, _, _, ?_, .cons named s.finders others, fun f => ?_⟩
        · simp only [List.map_cons, sortCategories, named, own.heard]
          exact heard
        · rw [gained, List.append_assoc, Sorted.all, own.words, own.caselessWords, wordSearches]
          simp only [List.nil_append, List.append_assoc]
        · simp only [List.map_cons, sortCategories, named, own.endless [] []]
          rw [again, List.append_assoc, Sorted.all, wordSearches]
          simp only [List.nil_append, List.append_assoc]

variable {g g' : List (Category × Finder)}

theorem wordSearches_lines (rules : List HighlightRule) :
    (wordSearches rules).any Finder.spansLines = false := by
  rw [wordSearches, List.any_append, Bool.or_eq_false_iff, List.any_eq_false, List.any_eq_false]
  exact ⟨fun e member => by simp [Finder.ofWords?_lines e member],
    fun e member => by simp [Finder.ofWords?_lines e member]⟩

theorem Wordier.spansLines (wordier : Wordier highlights g g') :
    (g.any fun e => e.2.spansLines) = g'.any fun e => e.2.spansLines := by
  induction wordier with
  | nil => rfl
  | cons named singles others ih =>
    have lines (rules : List HighlightRule) := wordSearches_lines rules
    simp only [List.any_append, List.any_map, Function.comp_def, lines, ih]

theorem Wordier.same (wordier : Wordier highlights g g')
    (spoken : ∀ c ∈ highlights, ∀ ignoreCase, Spoken ignoreCase c.2) : g' = g := by
  induction wordier with
  | nil => rfl
  | cons named singles others ih =>
    have own (ignoreCase : Bool) := Finder.ofWords?_arranged ignoreCase
      (arrangeWords_spoken.mpr (spoken _ List.mem_cons_self ignoreCase))
    rw [ih fun c member => spoken c (List.mem_cons_of_mem _ member), wordSearches, own, own]
    rfl

structure Fuller (d : Definition) (s s' : RuleSet) : Prop where
  kind : s'.kind = s.kind
  delimiters : s'.delimiters = s.delimiters
  outlines : s'.outlines = s.outlines
  spansLines : s'.spansLines = s.spansLines
  finders : Wordier d.highlights s.finders s'.finders

variable {s s' : RuleSet}

theorem Fuller.same (fuller : Fuller d s s')
    (spoken : ∀ c ∈ d.highlights, ∀ ignoreCase, Spoken ignoreCase c.2) : s' = s := by
  obtain ⟨kind, finders, delimiters, outlines, lines⟩ := s'
  obtain ⟨rfl, rfl, rfl, rfl, wordier⟩ := fuller
  cases wordier.same spoken
  rfl

theorem ofDefinition_fuller (made : ofDefinition d = .ok s) : ofDefinition d.heard = .ok s ∧
    ∃ s', ofDefinition d.endless = .ok s' ∧ Fuller d s s' := by
  unfold ofDefinition at made
  split at made
  · cases made
  · rename_i declared finders sorted
    obtain ⟨heard, g, g', gained, wordier, endless⟩ := sortCategories_wordier sorted
    rw [List.nil_append] at gained
    subst gained
    cases outlined : readOutlines d.outlines with
    | error e =>
      rw [outlined] at made
      cases made
    | ok outlines =>
      rw [outlined] at made
      cases made
      refine ⟨?_, ⟨d.kind, g', withComments declared d, outlines,
        (g'.any fun e => e.2.spansLines) || (withComments declared d).spansLines⟩, ?_,
        rfl, rfl, rfl, ?_, wordier⟩
      · simp only [ofDefinition, Definition.heard, heard, outlined]
        rfl
      · simp only [ofDefinition, Definition.endless, endless [], outlined]
        rfl
      · rw [wordier.spansLines]

def tally (g : List (Category × Finder)) (t : Text) (place : Span) : Nat :=
  (g.flatMap fun e => (e.2.spans (.whole t)).map (e.1, ·)).countP fun f => f.2 == place

variable {t : Text} {place : Span} {n : Nat}

theorem tally_append (g g' : List (Category × Finder)) :
    tally (g ++ g') t place = tally g t place + tally g' t place := by
  rw [tally, List.flatMap_append, List.countP_append]
  rfl

theorem tally_category (k : Category) (l : List Finder) : tally (l.map (k, ·)) t place =
    (l.flatMap fun e => e.spans (.whole t)).count place := by
  rw [tally, List.flatMap_map, List.countP_flatMap, List.count_flatMap]
  refine congrArg List.sum (List.map_congr_left fun e _ => ?_)
  rw [Function.comp_apply, List.countP_map]
  rfl

theorem captures_tally (compiled : s.Compiled) (compiled' : s'.Compiled)
    (delimiters : s'.delimiters = s.delimiters) (positive : 0 < place.stop)
    (same : s'.captures? t ⟨0, Text.size t⟩ = s.captures? t ⟨0, Text.size t⟩) :
    tally s'.finders t place = tally s.finders t place := by
  have count {r : RuleSet} (compiled : r.Compiled) :
      (((r.every t).map fun f => (⟨f.1.name, f.2⟩ : Capture)).countP fun c => c.span == place) =
        tally r.finders t place + (r.delimiters.regions (.whole t)).countP fun f => f.2 == place := by
    have asked : ∀ f : Category × Span, (f.2 == place) = true → 0 < f.2.stop := by
      intro f here
      rwa [eq_of_beq here]
    rw [List.countP_map, List.countP_eq_length_filter]
    change ((r.every t).filter fun f => f.2 == place).length = _
    rw [every_filter compiled t asked, ← List.countP_eq_length_filter, found, List.countP_append]
    rfl
  rw [captures_every, captures_every] at same
  have counts := congrArg (List.countP fun c => c.span == place) (Option.some.inj same)
  rw [count compiled, count compiled', delimiters] at counts
  exact Nat.add_right_cancel counts

def gains (w : Text) (rules : List HighlightRule) : Bool :=
  decide (w ∈ Finder.arrangeWords (wordsOf false (rules.map (·.endless)))) &&
    !decide (w ∈ Finder.arrangeWords (wordsOf false rules))

theorem arranged_kept (member : w ∈ Finder.arrangeWords (wordsOf ignoreCase rules)) :
    w ∈ Finder.arrangeWords (wordsOf ignoreCase (rules.map (·.endless))) := by
  obtain ⟨held, v, listed, trims⟩ := Finder.mem_arrangeWords.mp member
  exact Finder.mem_arrangeWords.mpr ⟨held, v, words_kept listed, trims⟩

theorem wordSearches_tally (k : Category) (spoken : Spoken true rules)
    (small : ∀ v ∈ Finder.arrangeWords (wordsOf false (rules.map (·.endless))), Text.size v < n)
    (some_word : w ≠ []) (some_digits : 0 < n) :
    tally ((wordSearches (rules.map (·.endless))).map (k, ·)) (Finder.guarded n w)
        (Finder.place n w) =
      tally ((wordSearches rules).map (k, ·)) (Finder.guarded n w) (Finder.place n w) +
        (gains w rules).toNat := by
  have caseless := Finder.ofWords?_arranged true (arrangeWords_spoken.mpr spoken)
  have small' : ∀ v ∈ Finder.arrangeWords (wordsOf false rules), Text.size v < n :=
    fun v member => small v (arranged_kept member)
  rw [tally_category, tally_category, wordSearches, wordSearches, List.flatMap_append,
    List.flatMap_append, List.count_append, List.count_append,
    Finder.words_count small some_word some_digits,
    Finder.words_count small' some_word some_digits, caseless, Nat.add_right_comm]
  congr 1
  have kept : w ∈ Finder.arrangeWords (wordsOf false rules) →
      w ∈ Finder.arrangeWords (wordsOf false (rules.map (·.endless))) := arranged_kept
  unfold gains
  split_ifs <;> simp_all

theorem Wordier.tally (wordier : Wordier highlights g g') (spoken : ∀ c ∈ highlights, Spoken true c.2)
    (small : ∀ c ∈ highlights, ∀ v ∈ Finder.arrangeWords (wordsOf false (c.2.map (·.endless))),
      Text.size v < n) (some_word : w ≠ []) (some_digits : 0 < n) :
    RuleSet.tally g' (Finder.guarded n w) (Finder.place n w) =
      RuleSet.tally g (Finder.guarded n w) (Finder.place n w) +
        highlights.countP fun c => gains w c.2 := by
  induction wordier with
  | nil => rfl
  | cons named singles others ih =>
    rename_i name k rules rest g g'
    have own := wordSearches_tally k (spoken _ List.mem_cons_self) (small _ List.mem_cons_self)
      some_word some_digits
    have rests := ih (fun c member => spoken c (List.mem_cons_of_mem _ member))
      fun c member => small c (List.mem_cons_of_mem _ member)
    simp only [List.map_append, tally_append, own, rests, List.countP_cons]
    cases gains w rules <;> simp <;> omega

theorem sizes_bounded (l : List Text) : ∃ n, 0 < n ∧ ∀ v ∈ l, Text.size v < n := by
  induction l with
  | nil => exact ⟨1, Nat.one_pos, by simp⟩
  | cons w rest ih =>
    obtain ⟨n, -, small⟩ := ih
    refine ⟨max n (Text.size w + 1), by omega, fun v member => ?_⟩
    rcases List.mem_cons.mp member with rfl | later
    · omega
    · have own := small v later
      omega

theorem Fuller.spoken (fuller : Fuller d s s') (compiled : s.Compiled) (compiled' : s'.Compiled)
    (caseless : ∀ c ∈ d.highlights, Spoken true c.2)
    (same : ∀ t wanted, s'.captures? t wanted = s.captures? t wanted) :
    ∀ c ∈ d.highlights, Spoken false c.2 := by
  intro c listed r member mute heeds held
  by_contra unspoken
  obtain ⟨n, some_digits, small⟩ := sizes_bounded (d.highlights.flatMap fun c =>
    Finder.arrangeWords (wordsOf false (c.2.map (·.endless))))
  have counts := fuller.finders.tally caseless
    (fun c listed v member => small v (List.mem_flatMap.mpr ⟨c, listed, member⟩)) held some_digits
  have width := Finder.place_size n (Unicode.trim r.beginString)
  have longer := Text.size_pos held
  have positive : 0 < (Finder.place n (Unicode.trim r.beginString)).stop := by
    change 0 < (Finder.back n _).offset
    omega
  rw [captures_tally compiled compiled' fuller.delimiters positive (same _ _)] at counts
  have gained : gains (Unicode.trim r.beginString) c.2 = true := by
    have own : Unicode.trim r.beginString ∈
        Finder.arrangeWords (wordsOf false (c.2.map (·.endless))) :=
      Finder.mem_arrangeWords.mpr
        ⟨held, _, mem_wordsOf_endless.mpr ⟨r, member, .inr mute, heeds, rfl⟩, rfl⟩
    have other : Unicode.trim r.beginString ∉ Finder.arrangeWords (wordsOf false c.2) :=
      fun found => unspoken (Finder.mem_arrangeWords.mp found).2
    simp [gains, own, other]
  have more : 0 < d.highlights.countP fun c => gains (Unicode.trim r.beginString) c.2 :=
    List.countP_pos_iff.mpr ⟨c, listed, gained⟩
  omega

-- Leaving the empty ends out makes a difference to some text exactly if a mute rule says something
-- that is no word of its category.
theorem empty_ends (made : ofDefinition d = .ok s) : ofDefinition d.heard = .ok s ∧
    (∃ s', ofDefinition d.endless = .ok s' ∧ Fuller d s s' ∧
      ((∀ c ∈ d.highlights, ∀ ignoreCase, Spoken ignoreCase c.2) → s' = s) ∧
      ((∀ c ∈ d.highlights, Spoken true c.2) →
        ((∀ t wanted, s'.captures? t wanted = s.captures? t wanted) ↔
          ∀ c ∈ d.highlights, Spoken false c.2))) ∧
    ∀ (k : Category) (r : HighlightRule) (m next : Sorted), r.beginString ≠ [] →
      sortRule k m r = .ok next → if r.isMute then next = m else next.entries = m.entries + 1 := by
  obtain ⟨heard, s', made', fuller⟩ := ofDefinition_fuller made
  have same (spoken : ∀ c ∈ d.highlights, ∀ ignoreCase, Spoken ignoreCase c.2) : s' = s :=
    fuller.same spoken
  refine ⟨heard, ⟨s', made', fuller, same, fun caseless => ⟨?_, fun cased t wanted => ?_⟩⟩,
    fun k r m next begins sorted => ?_⟩
  · exact fuller.spoken (ofDefinition_compiled made) (ofDefinition_compiled made') caseless
  · rw [same fun c listed ignoreCase => by
      cases ignoreCase
      · exact cased c listed
      · exact caseless c listed]
  · split
    · rename_i mute
      exact (Except.ok.inj ((sortRule_mute mute m).symm.trans sorted)).symm
    · rename_i voiced
      exact sortRule_claims begins (Bool.eq_false_iff.mpr voiced) sorted

theorem empty_ends_beside :
    let rule : HighlightRule := { beginString := ['i', 'f'], endString := some [] }
    let d : Definition := { highlights := [("keywords", [rule, .word [' ', 'i', 'f']])] }
    ∃ s s', ofDefinition d = .ok s ∧ ofDefinition d.endless = .ok s' ∧
      ∀ t wanted, s'.captures? t wanted = s.captures? t wanted := by
  intro rule d
  cases made : ofDefinition d with
  | error e => cases made
  | ok s =>
    obtain ⟨-, ⟨s', made', -, -, heard⟩, -⟩ := empty_ends made
    have caseless : ∀ c ∈ d.highlights, Spoken true c.2 := by
      simp [d, rule, Spoken, HighlightRule.isMute, HighlightRule.word]
    have cased : ∀ c ∈ d.highlights, Spoken false c.2 := by
      simp only [d, rule, Spoken, List.forall_mem_singleton]
      decide
    exact ⟨s, s', rfl, made', (heard caseless).mpr cased⟩

-- A mute rule alone says nothing, and without its empty end it is a word.
theorem empty_ends_lost : ¬ ∀ (d : Definition) (s : RuleSet), ofDefinition d = .ok s →
    ∃ s', ofDefinition d.endless = .ok s' ∧ s'.spansLines = s.spansLines ∧
      ∀ t wanted, s'.captures? t wanted = s.captures? t wanted := by
  intro claim
  let rule : HighlightRule := { beginString := ['i', 'f'], endString := some [] }
  let d : Definition := { highlights := [("keywords", [rule])] }
  cases made : ofDefinition d with
  | error e => cases made
  | ok s =>
    obtain ⟨s', made', -, agrees⟩ := claim d s made
    have same := agrees ['i', 'f'] ⟨0, 2⟩
    cases made
    cases made'
    revert same
    decide

end RuleSet

end Rules

end LiveHighlight
