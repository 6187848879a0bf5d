import LiveHighlight.Nesting.TreeLayer

-- Embedded regions, read with nothing left of earlier passes. Sublayers that are taken over make no
-- difference to this, as long as reading them again gives what reading from the start does.

namespace LiveHighlight.Nesting

variable {S L T : Type}

namespace Catalogue

theorem find?_put (name : String) (e : Entry S L) (entries : List (String × Entry S L))
    (n : String) :
    (put name e entries).find? (·.1 == n) =
      if name = n then some (name, e) else entries.find? (·.1 == n) := by
  induction entries with
  | nil => by_cases here : name = n <;> simp [put, here]
  | cons entry rest ih =>
    obtain ⟨m, old⟩ := entry
    unfold put
    split
    · rename_i same
      subst same
      by_cases here : name = n <;> simp [here]
    · rename_i other
      split
      · by_cases here : name = n <;> simp [List.find?_cons, here]
      · rw [List.find?_cons, ih, List.find?_cons]
        by_cases here : m = n
        · subst here
          simp [other]
        · simp [beq_eq_false_iff_ne.mpr here]

theorem entry?_enterAs (r : Catalogue S L) (name : String) (s : S) (n : String) :
    Catalogue.entry? (r.enterAs name s) n = if name = n then some (.pending s) else r.entry? n := by
  simp only [enterAs, entry?, find?_put]
  split <;> rfl

end Catalogue

namespace TreeLayer

structure Alike (l m : TreeLayer S L T) : Prop where
  catalogue : l.catalogue = m.catalogue
  language : l.language = m.language
  categories : l.categories = m.categories
  maxDepth : l.maxDepth = m.maxDepth

variable {l m n : TreeLayer S L T}

theorem Alike.refl (l : TreeLayer S L T) : Alike l l := ⟨rfl, rfl, rfl, rfl⟩

theorem Alike.symm (alike : Alike l m) : Alike m l :=
  ⟨alike.catalogue.symm, alike.language.symm, alike.categories.symm, alike.maxDepth.symm⟩

theorem Alike.trans (first : Alike l m) (second : Alike m n) : Alike l n :=
  ⟨first.catalogue.trans second.catalogue, first.language.trans second.language,
    first.categories.trans second.categories, first.maxDepth.trans second.maxDepth⟩

end TreeLayer

variable [Parsing L T]

theorem TreeLayer.edit_from (l : TreeLayer S L T) (splice : Splice) : Alike (l.edit splice) l :=
  ⟨rfl, rfl, rfl, rfl⟩

variable [Compiling S L]

-- What is found under a name is found again under the name it carries. A name is there to look its
-- language up, so that is how languages are entered.
def Catalogue.Named (r : Catalogue S L) : Prop :=
  ∀ n l, r.language n = .ok l → r.language (Parsing.name l) = .ok l

namespace Catalogue

def Registers (r : Catalogue S L) : Prop :=
  ∀ n e, r.entry? n = some e → ∃ s, e = .pending s ∧ Compiling.sourceName s = n

theorem enter_registers {r : Catalogue S L} (registers : r.Registers) (s : S) :
    (r.enter s).Registers := by
  intro n e found
  rw [enter, entry?_enterAs] at found
  split at found
  · rename_i same
    exact ⟨s, (Option.some.inj found).symm, same⟩
  · exact registers n e found

theorem filled_registers {r : Catalogue S L} (registers : r.Registers) (sources : List S) :
    (sources.foldl enter r).Registers := by
  induction sources generalizing r with
  | nil => exact registers
  | cons s rest ih => exact ih (enter_registers registers s)

-- Names are carried over into the languages, so sources entered under their own names will do.
theorem filled_named (kept : ∀ (s : S) (l : L), Compiling.compile s = .ok l →
      Parsing.name l = Compiling.sourceName s) (sources : List S) :
    (sources.foldl enter (empty : Catalogue S L)).Named := by
  intro n l known
  have registers : (sources.foldl enter (empty : Catalogue S L)).Registers :=
    filled_registers (fun n e found => by cases found) sources
  have own : Parsing.name l = n := by
    unfold language lookup at known
    split at known
    · cases known
    · rename_i ready found
      obtain ⟨s, same, -⟩ := registers _ _ found
      cases same
    · rename_i source found
      obtain ⟨s, same, named⟩ := registers _ _ found
      cases same
      split at known
      · cases known
      · rename_i compiled
        cases Except.ok.inj known
        exact (kept _ _ compiled).trans named
  rw [own]
  exact known

end Catalogue

def sublayerOf? (catalogue : Catalogue S L) (t : Text) (depth : Nat) (i : Injection) :
    Option (Sublayer L T) :=
  match catalogue.language i.language with
  | .error _ => none
  | .ok l =>
    if Injection.inOrder i.pieces then
      some ⟨depth, i.span, l, Parsing.read l none t (some i.pieces)⟩
    else none

def sublayersOf (catalogue : Catalogue S L) (t : Text) :
    (left depth : Nat) → List Injection → List (Sublayer L T)
  | 0, _, _ => []
  | left + 1, depth, wanted =>
    let found := wanted.filterMap (sublayerOf? catalogue t depth)
    found ++ sublayersOf catalogue t left (depth + 1)
      (found.flatMap fun s => injections s.language s.tree t)

-- Its language is the one of its name, and its tree is no worse than none.
structure Sublayer.Fresh (catalogue : Catalogue S L) (t : Text) (s : Sublayer L T) : Prop where
  named : catalogue.language (Parsing.name s.language) = .ok s.language
  reread : ∀ pieces, Injection.inOrder pieces →
    Parsing.read s.language s.tree t (some pieces) = Parsing.read s.language none t (some pieces)

variable {catalogue : Catalogue S L} {t : Text} {depth left : Nat} {r : Resolution L T}
  {i : Injection} {wanted : List Injection}

theorem mem_takeOut {α : Type} {isMeant : α → Bool} {l : List α} {a : α}
    (member : a ∈ takeOut isMeant l) : a ∈ l := by
  unfold takeOut at member
  split at member
  · rename_i i last found final
    rcases List.mem_or_eq_of_mem_set (List.dropLast_subset _ member) with present | rfl
    · exact present
    · exact List.mem_of_getLast? final
  · exact member

theorem sublayersOf_nil (left depth : Nat) :
    sublayersOf (T := T) catalogue t left depth [] = [] := by
  induction left generalizing depth with
  | zero => rfl
  | succ left ih => simpa [sublayersOf] using ih (depth + 1)

namespace Resolution

-- Nothing is added to what later regions may take over.
theorem place_reads (fresh : ∀ s ∈ r.previous, s.Fresh catalogue t) (depth : Nat)
    (i : Injection) :
    (place catalogue t depth r i).1 = sublayerOf? catalogue t depth i ∧
      (place catalogue t depth r i).2.previous ⊆ r.previous := by
  unfold place sublayerOf?
  dsimp only
  split
  · rename_i s found
    have same := List.find?_some found
    simp only [Bool.and_eq_true, beq_iff_eq] at same
    obtain ⟨⟨depths, spans⟩, names⟩ := same
    obtain ⟨named, reread⟩ := fresh s (List.mem_of_find?_eq_some found)
    -- The sublayer brings the language that the region's name stands for anyway.
    rw [names] at named
    rw [named]
    split
    · rename_i ordered
      refine ⟨?_, fun a member => mem_takeOut member⟩
      simp only [reread _ ordered, ← depths, ← spans]
    · exact ⟨rfl, fun a member => mem_takeOut member⟩
  · cases catalogue.language i.language with
    | error e => exact ⟨rfl, fun a member => member⟩
    | ok l =>
      dsimp only
      split <;> exact ⟨rfl, fun a member => member⟩

theorem placeAll_reads (fresh : ∀ s ∈ r.previous, s.Fresh catalogue t) (depth : Nat)
    (wanted : List Injection) :
    (placeAll catalogue t depth r wanted).1 = wanted.filterMap (sublayerOf? catalogue t depth) ∧
      (placeAll catalogue t depth r wanted).2.previous ⊆ r.previous := by
  induction wanted generalizing r with
  | nil => exact ⟨rfl, fun a member => member⟩
  | cons i rest ih =>
    obtain ⟨placed, fewer⟩ := place_reads fresh depth i
    obtain ⟨others, final⟩ := ih fun s member => fresh s (fewer member)
    refine ⟨?_, fun a member => fewer (final member)⟩
    simp only [placeAll, placed, others]
    cases found : sublayerOf? (T := T) catalogue t depth i with
    | none => simp [found]
    | some s => simp [found]

theorem levels_reads (fresh : ∀ s ∈ r.previous, s.Fresh catalogue t) (left depth : Nat)
    (wanted : List Injection) :
    (levels catalogue t left depth r wanted).1 = sublayersOf catalogue t left depth wanted := by
  induction left generalizing depth r wanted with
  | zero => rfl
  | succ left ih =>
    rw [levels]
    split
    · rename_i nothing
      rw [List.isEmpty_iff.mp nothing, sublayersOf_nil]
    · obtain ⟨placed, fewer⟩ := placeAll_reads fresh depth wanted
      dsimp only
      rw [placed, ih fun s member => fresh s (fewer member), sublayersOf]

end Resolution

theorem sublayerOf?_exact {s : Sublayer L T} : sublayerOf? catalogue t depth i = some s ↔
    catalogue.language i.language = .ok s.language ∧ Injection.inOrder i.pieces = true ∧
      s = ⟨depth, i.span, s.language, Parsing.read s.language none t (some i.pieces)⟩ := by
  unfold sublayerOf?
  constructor
  · intro found
    split at found
    · cases found
    · rename_i l known
      split at found
      · rename_i ordered
        cases Option.some.inj found
        exact ⟨known, ordered, rfl⟩
      · cases found
  · rintro ⟨known, ordered, whole⟩
    rw [known]
    dsimp only
    rw [if_pos ordered, ← whole]

theorem mem_sublayersOf {s : Sublayer L T}
    (member : s ∈ sublayersOf catalogue t left depth wanted) :
    ∃ i : Injection, catalogue.language i.language = .ok s.language ∧
      Injection.inOrder i.pieces = true ∧
      s.tree = Parsing.read s.language none t (some i.pieces) := by
  induction left generalizing depth wanted with
  | zero => cases member
  | succ left ih =>
    rcases List.mem_append.mp member with here | deeper
    · obtain ⟨i, -, found⟩ := List.mem_filterMap.mp here
      obtain ⟨known, ordered, whole⟩ := sublayerOf?_exact.mp found
      exact ⟨i, known, ordered, congrArg Sublayer.tree whole⟩
    · exact ih deeper

-- A tree that was read of a valid text and has gone along with each accepted edit since.
inductive Followed (valid : Text → Prop) (l : L) : T → Text → Prop where
  | read {t : Text} {tree : T} (pieces : Option (List Span)) (held : valid t)
      (ordered : pieces.all Injection.inOrder = true)
      (found : Parsing.read l none t pieces = some tree) : Followed valid l tree t
  | edit {before after : Text} {e : Edit} {splice : Splice} {tree : T}
      (followed : Followed valid l tree before)
      (accepted : (Document.ofText before).edit e = .ok (.ofText after, splice)) :
      Followed valid l (Parsing.edit l tree splice) after

-- Reading a valid text with such a tree at hand gives what reading it from the start does.
def Faithful (L : Type) {T : Type} [Parsing L T] (valid : Text → Prop) : Prop :=
  ∀ (l : L) (tree : T) (t : Text) (pieces : Option (List Span)), valid t →
    pieces.all Injection.inOrder = true → Followed valid l tree t →
    Parsing.read l (some tree) t pieces = Parsing.read l none t pieces

namespace TreeLayer

variable {valid : Text → Prop} {l m : TreeLayer S L T} {before after : Text} {e : Edit}
  {splice : Splice}

structure InStep (valid : Text → Prop) (l : TreeLayer S L T) (t : Text) : Prop where
  root : ∀ tree ∈ l.tree, Followed valid l.language tree t
  named : ∀ s ∈ l.sublayers, l.catalogue.language (Parsing.name s.language) = .ok s.language
  nested : ∀ s ∈ l.sublayers, ∀ tree ∈ s.tree, Followed valid s.language tree t

theorem load_alike (alike : Alike l m) (t : Text) : load l t = load m t := by
  obtain ⟨catalogue, language, tree, sublayers, categories, maxDepth⟩ := l
  obtain ⟨rfl, rfl, rfl, rfl⟩ := alike
  rfl

theorem load_from (l : TreeLayer S L T) (t : Text) : Alike (load l t) l := ⟨rfl, rfl, rfl, rfl⟩

theorem refresh_from (l : TreeLayer S L T) (t : Text) (affecting : SpanSet)
    (withEmbedded : Bool) : Alike (l.refresh t affecting withEmbedded).1 l := by
  unfold refresh
  dsimp only
  split <;> exact ⟨rfl, rfl, rfl, rfl⟩

theorem load_reads (l : TreeLayer S L T) (t : Text) :
    (load l t).tree = Parsing.read l.language none t none ∧
      (load l t).sublayers = sublayersOf l.catalogue t l.maxDepth 1
        (injections l.language (Parsing.read l.language none t none) t) := by
  refine ⟨rfl, ?_⟩
  exact Resolution.levels_reads (by simp) l.maxDepth 1 _

theorem load_inStep (named : l.catalogue.Named) (held : valid t) : InStep valid (load l t) t where
  root tree present := .read none held rfl present
  named s member := by
    rw [(load_reads l t).2] at member
    obtain ⟨i, known, -, -⟩ := mem_sublayersOf member
    exact named _ _ known
  nested s member tree present := by
    rw [(load_reads l t).2] at member
    obtain ⟨i, -, ordered, whole⟩ := mem_sublayersOf member
    exact .read (some i.pieces) held ordered (whole.symm.trans present)

theorem edit_inStep (inStep : InStep valid l before)
    (accepted : (Document.ofText before).edit e = .ok (.ofText after, splice)) :
    InStep valid (l.edit splice) after where
  root tree present := by
    obtain ⟨old, held, rfl⟩ := Option.map_eq_some_iff.mp present
    exact .edit (inStep.root old held) accepted
  named s member := by
    obtain ⟨old, held, rfl⟩ := List.mem_map.mp member
    exact inStep.named old held
  nested s member tree present := by
    obtain ⟨old, held, rfl⟩ := List.mem_map.mp member
    obtain ⟨first, kept, rfl⟩ := Option.map_eq_some_iff.mp present
    exact .edit (inStep.nested old held first kept) accepted

theorem reread {language : L} {old : Option T} (faithful : Faithful L valid) (held : valid t)
    (followed : ∀ tree ∈ old, Followed valid language tree t) (pieces : Option (List Span))
    (ordered : pieces.all Injection.inOrder = true) :
    Parsing.read language old t pieces = Parsing.read language none t pieces := by
  cases old with
  | none => rfl
  | some tree => exact faithful language tree t pieces held ordered (followed tree rfl)

-- A layer in step that catches up is as if it had just read the text.
theorem refresh_reads (faithful : Faithful L valid) (held : valid t) (inStep : InStep valid l t)
    (affecting : SpanSet) : (l.refresh t affecting true).1 = load l t := by
  have root := reread faithful held inStep.root none rfl
  have fresh : ∀ s ∈ l.sublayers, s.Fresh l.catalogue t := fun s member =>
    ⟨inStep.named s member, fun pieces ordered =>
      reread faithful held (inStep.nested s member) _ ordered⟩
  simp only [refresh, load, resolve, if_true, root]
  rw [Resolution.levels_reads fresh, Resolution.levels_reads (by simp)]

theorem refresh_inStep (faithful : Faithful L valid) (named : l.catalogue.Named) (held : valid t)
    (inStep : InStep valid l t) (affecting : SpanSet) (withEmbedded : Bool) :
    InStep valid (l.refresh t affecting withEmbedded).1 t := by
  cases withEmbedded with
  | true =>
    rw [refresh_reads faithful held inStep]
    exact load_inStep named held
  | false =>
    refine ⟨?_, inStep.named, inStep.nested⟩
    intro tree present
    have root := reread faithful held inStep.root none rfl
    exact .read none held rfl (root.symm.trans present)

end TreeLayer

end LiveHighlight.Nesting
