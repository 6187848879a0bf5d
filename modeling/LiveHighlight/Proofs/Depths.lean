import LiveHighlight.Proofs.Agendas
import LiveHighlight.Proofs.Rereading

-- What resolving embedded regions comes to, depth by depth. The sublayers of one depth are those
-- of the regions found in the sublayers above them, as far as a region can be read at all.

namespace LiveHighlight.Nesting

variable {S L T : Type} {s : Sublayer L T} {l m : List (Sublayer L T)} {d : Nat}

def atDepth (d : Nat) (l : List (Sublayer L T)) : List (Sublayer L T) := l.filter (·.depth == d)

theorem atDepth_append : atDepth d (l ++ m) = atDepth d l ++ atDepth d m := List.filter_append _ _

theorem atDepth_all (each : ∀ s ∈ l, s.depth = d) : atDepth d l = l :=
  List.filter_eq_self.mpr fun s member => beq_iff_eq.mpr (each s member)

theorem atDepth_none (each : ∀ s ∈ l, s.depth ≠ d) : atDepth d l = [] :=
  List.filter_eq_nil_iff.mpr fun s member same => each s member (beq_iff_eq.mp same)

variable [Compiling S L] [Parsing L T] {catalogue : Catalogue S L} {t : Text}
  {left depth : Nat} {i : Injection} {wanted : List Injection}

-- A region that can be read: its language was entered and compiles, and its pieces are in order.
structure Resolves (catalogue : Catalogue S L) (t : Text) (depth : Nat) (i : Injection)
    (s : Sublayer L T) : Prop where
  language : ∃ e, catalogue.entry? i.language = some e ∧ e.Yields s.language
  ordered : Injection.inOrder i.pieces = true
  depth : s.depth = depth
  span : s.span = i.span
  tree : s.tree = Parsing.read s.language none t (some i.pieces)

theorem sublayerOf?_resolves :
    sublayerOf? catalogue t depth i = some s ↔ Resolves catalogue t depth i s := by
  rw [sublayerOf?_exact, Catalogue.language_exact]
  constructor
  · rintro ⟨language, ordered, whole⟩
    exact ⟨language, ordered, congrArg Sublayer.depth whole, congrArg Sublayer.span whole,
      congrArg Sublayer.tree whole⟩
  · rintro ⟨language, ordered, rfl, span, tree⟩
    refine ⟨language, ordered, ?_⟩
    rw [← span, ← tree]

theorem found_depth (member : s ∈ wanted.filterMap (sublayerOf? catalogue t depth)) :
    s.depth = depth := by
  obtain ⟨i, -, found⟩ := List.mem_filterMap.mp member
  exact (sublayerOf?_resolves.mp found).depth

theorem sublayersOf_depths (member : s ∈ sublayersOf catalogue t left depth wanted) :
    depth ≤ s.depth ∧ s.depth < depth + left := by
  induction left generalizing depth wanted with
  | zero => cases member
  | succ left ih =>
    rcases List.mem_append.mp member with here | deeper
    · have own := found_depth here
      omega
    · have bounds := ih deeper
      omega

theorem sublayersOf_first (left depth : Nat) (wanted : List Injection) :
    atDepth depth (sublayersOf (T := T) catalogue t (left + 1) depth wanted) =
      wanted.filterMap (sublayerOf? catalogue t depth) := by
  rw [sublayersOf, atDepth_append, atDepth_all fun s member => found_depth member,
    atDepth_none, List.append_nil]
  intro s deeper
  have bounds := sublayersOf_depths deeper
  omega

theorem sublayersOf_deeper (behind : depth ≤ d) :
    atDepth (d + 1) (sublayersOf catalogue t left depth wanted) =
      if d + 1 < depth + left then
        ((atDepth d (sublayersOf catalogue t left depth wanted)).flatMap fun s =>
          injections s.language s.tree t).filterMap (sublayerOf? catalogue t (d + 1))
      else [] := by
  induction left generalizing depth wanted with
  | zero =>
    rw [if_neg (by omega)]
    rfl
  | succ left ih =>
    have above : ∀ s ∈ wanted.filterMap (sublayerOf? catalogue t depth), s.depth ≠ d + 1 := by
      intro s member
      have own := found_depth member
      omega
    rcases Nat.lt_or_eq_of_le behind with below | rfl
    · have higher : ∀ s ∈ wanted.filterMap (sublayerOf? catalogue t depth), s.depth ≠ d := by
        intro s member
        have own := found_depth member
        omega
      rw [sublayersOf, atDepth_append, atDepth_append, atDepth_none above, atDepth_none higher,
        List.nil_append, List.nil_append, ih below, Nat.succ_add_eq_add_succ]
    · rw [sublayersOf_first, sublayersOf, atDepth_append, atDepth_none above, List.nil_append]
      cases left with
      | zero =>
        rw [if_neg (by omega)]
        rfl
      | succ left => rw [if_pos (by omega), sublayersOf_first]

theorem sublayersOf_ordered (left depth : Nat) (wanted : List Injection) :
    (sublayersOf catalogue t left depth wanted).Pairwise
      fun a b : Sublayer L T => a.depth ≤ b.depth := by
  induction left generalizing depth wanted with
  | zero => exact .nil
  | succ left ih =>
    refine List.pairwise_append.mpr ⟨?_, ih _ _, ?_⟩
    · refine List.pairwise_iff_getElem.mpr fun i j first second _ => ?_
      rw [found_depth (List.getElem_mem first), found_depth (List.getElem_mem second)]
    · intro a first b second
      have own := found_depth first
      have bounds := sublayersOf_depths second
      omega

-- The sublayers below a root that finds such regions, to a greatest depth: those of depth 1 in
-- the order of the regions, those of each further depth in the order of the sublayers above them.
structure Closes (catalogue : Catalogue S L) (t : Text) (maxDepth : Nat) (roots : List Injection)
    (found : List (Sublayer L T)) : Prop where
  first : atDepth 1 found =
    if 1 ≤ maxDepth then roots.filterMap (sublayerOf? catalogue t 1) else []
  deeper : ∀ d, 1 ≤ d → atDepth (d + 1) found =
    if d + 1 ≤ maxDepth then
      ((atDepth d found).flatMap fun s => injections s.language s.tree t).filterMap
        (sublayerOf? catalogue t (d + 1))
    else []
  ordered : found.Pairwise fun a b => a.depth ≤ b.depth
  bounded : ∀ s ∈ found, 1 ≤ s.depth ∧ s.depth ≤ maxDepth

theorem sublayersOf_closes (catalogue : Catalogue S L) (t : Text) (maxDepth : Nat)
    (roots : List Injection) :
    Closes (T := T) catalogue t maxDepth roots (sublayersOf catalogue t maxDepth 1 roots) where
  first := by
    cases maxDepth with
    | zero => rfl
    | succ left => rw [sublayersOf_first, if_pos (by omega)]
  deeper d positive := by
    rw [sublayersOf_deeper positive]
    simp only [Nat.add_comm 1 maxDepth, Nat.lt_succ_iff]
  ordered := sublayersOf_ordered _ _ _
  bounded s member := by
    have bounds := sublayersOf_depths member
    omega

-- The layers that come of reading a text, going along with accepted edits and catching up.
inductive Reached (valid : Text → Prop) : TreeLayer S L T → Text → Prop where
  | load {l : TreeLayer S L T} {t : Text} (held : valid t) : Reached valid (l.load t) t
  | edit {l : TreeLayer S L T} {before after : Text} {e : Edit} {splice : Splice}
      (reached : Reached valid l before)
      (accepted : (Document.ofText before).edit e = .ok (.ofText after, splice)) :
      Reached valid (l.edit splice) after
  | refresh {l : TreeLayer S L T} {t : Text} (reached : Reached valid l t) (held : valid t)
      (affecting : SpanSet) (withEmbedded : Bool) :
      Reached valid (l.refresh t affecting withEmbedded).1 t

theorem Reached.inStep {valid : Text → Prop} {l : TreeLayer S L T} (faithful : Faithful L valid)
    (named : l.catalogue.Named) (reached : Reached valid l t) : l.InStep valid t := by
  induction reached with
  | load held => exact TreeLayer.load_inStep named held
  | edit _ accepted ih => exact TreeLayer.edit_inStep (ih named) accepted
  | @refresh l t _ held affecting withEmbedded ih =>
    rw [(TreeLayer.refresh_from l t affecting withEmbedded).catalogue] at named
    exact TreeLayer.refresh_inStep faithful named held (ih named) affecting withEmbedded

theorem load_closes (l : TreeLayer S L T) (t : Text) :
    Closes l.catalogue t l.maxDepth (injections l.language (l.load t).tree t)
      (l.load t).sublayers := by
  rw [(TreeLayer.load_reads l t).2]
  exact sublayersOf_closes _ _ _ _

-- Resolving ends, and what it leaves is closed below the root. A layer that takes sublayers over
-- needs languages that are found again under their own names; reading from the start does not.
theorem resolving_closes (S : Type) [Compiling S L] (valid : Text → Prop)
    (faithful : Faithful L valid) :
    (∀ (t : Text) (maxDepth : Nat),
      WellFounded fun b a : Agenda S L T => a.turn? t maxDepth = some b) ∧
    (∀ (l : TreeLayer S L T) (t : Text) (invalidated : SpanSet), ∃ final,
      (∀ a, Agenda.Drains t l.maxDepth (l.agenda t invalidated) a ↔ a = final) ∧
      l.resolve t invalidated = ({ l with sublayers := final.found },
        addAll final.resolution.invalidated (final.resolution.previous.map (·.span)))) ∧
    (∀ (l : TreeLayer S L T) (t : Text), Closes l.catalogue t l.maxDepth
      (injections l.language (l.load t).tree t) (l.load t).sublayers) ∧
    (∀ (l : TreeLayer S L T) (t : Text) (affecting : SpanSet), l.catalogue.Named →
      Reached valid l t → valid t → Closes l.catalogue t l.maxDepth
        (injections l.language (l.refresh t affecting true).1.tree t)
        (l.refresh t affecting true).1.sublayers) ∧
    (∀ (catalogue : Catalogue S L) (t : Text) (depth : Nat) (i : Injection) (s : Sublayer L T),
      sublayerOf? catalogue t depth i = some s ↔ Resolves catalogue t depth i s) := by
  refine ⟨Agenda.turns_end, ?_, load_closes, ?_, fun _ _ _ _ _ => sublayerOf?_resolves⟩
  · intro l t invalidated
    obtain ⟨final, drains, -, resolved⟩ := l.agenda_drains t invalidated
    refine ⟨final, fun a => ⟨fun other => other.unique drains, ?_⟩, resolved⟩
    rintro rfl
    exact drains
  · intro l t affecting named reached held
    rw [TreeLayer.refresh_reads faithful held (reached.inStep faithful named) affecting]
    exact load_closes l t

end LiveHighlight.Nesting

namespace LiveHighlight.Embedding

open Nesting

-- A language that reads every document in it as a document of its own, over the very same bytes.
def mirrors : Language :=
  ⟨"json", [], [], some [⟨.named .document [] false ["injection.content"],
    [("injection.language", "json")]⟩]⟩

def mirrorSource : LanguageSource := ⟨"json", [],
  some "((document) @injection.content (#set! injection.language \"json\"))".toList⟩

def mirrored : TreeLayer := ⟨Catalogue.enter .empty mirrorSource, mirrors, none, [], [], 3⟩

def insertion : Splice := ⟨2, 2, 3, ⟨0, 2⟩, ⟨0, 2⟩, ⟨0, 3⟩⟩

theorem resolving_closes_mirrored :
    let l := (mirrored.load ['[', '1', ']']).edit insertion
    let next := (l.refresh ['[', '1', '2', ']'] .empty true).1
    next.sublayers.map (fun s => (s.depth, s.span)) = [(1, ⟨0, 4⟩), (2, ⟨0, 4⟩), (3, ⟨0, 4⟩)] ∧
      Closes mirrored.catalogue ['[', '1', '2', ']'] 3
        (injections mirrors next.tree ['[', '1', '2', ']']) next.sublayers := by
  intro l next
  have accepted : (Document.ofText ['[', '1', ']']).edit (.insert 2 ['2']) =
      .ok (.ofText ['[', '1', '2', ']'], insertion) := by decide +kernel
  have reached : Reached (fun _ => True) l ['[', '1', '2', ']'] :=
    .edit (.load trivial) accepted
  have alike : l.Alike mirrored :=
    (TreeLayer.edit_from _ _).trans (TreeLayer.load_from mirrored _)
  have named : l.catalogue.Named := by
    rw [alike.catalogue]
    exact filled_named [mirrorSource]
  obtain ⟨-, -, -, closes, -⟩ := resolving_closes LanguageSource _ language_faithful
  have closed := closes l _ .empty named reached trivial
  rw [alike.catalogue, alike.language, alike.maxDepth] at closed
  exact ⟨by decide +kernel, closed⟩

def keyInsertion : Splice := ⟨3, 3, 4, ⟨0, 3⟩, ⟨0, 3⟩, ⟨0, 4⟩⟩

-- A language that is not found under its own name leaves a sublayer that no region resolves to.
theorem resolving_strays : ¬ ∀ (l : TreeLayer) (t : Text) (affecting : SpanSet),
    Reached (fun _ => True) l t → Closes l.catalogue t l.maxDepth
      (injections l.language (l.refresh t affecting true).1.tree t)
      (l.refresh t affecting true).1.sublayers := by
  intro claim
  let l := (astray.load (pairText ['j'] ['[', '1', ']'])).edit keyInsertion
  let t := pairText ['j', '2'] ['[', '1', ']']
  have accepted : (Document.ofText (pairText ['j'] ['[', '1', ']'])).edit (.insert 3 ['2']) =
      .ok (.ofText t, keyInsertion) := by decide +kernel
  have kept : (atDepth 1 (l.refresh t .empty true).1.sublayers).length = 1 := by decide +kernel
  have none : ((injections l.language (l.refresh t .empty true).1.tree t).filterMap
      (sublayerOf? l.catalogue t 1)).length = 0 := by decide +kernel
  have first := (claim l t .empty (.edit (.load trivial) accepted)).first
  have alike : l.Alike astray := (TreeLayer.edit_from _ _).trans (TreeLayer.load_from astray _)
  rw [alike.maxDepth, if_pos (by decide : 1 ≤ astray.maxDepth)] at first
  have equal := kept.symm.trans ((congrArg List.length first).trans none)
  simp at equal

end LiveHighlight.Embedding
