import Mathlib.Data.List.Pairwise
import Mathlib.Data.List.Perm.Basic
import LiveHighlight.Proofs.Resolving
import LiveHighlight.Proofs.SpanSets

-- What a layer of trees reports. Asked twice about one text, it has nothing to add: each sublayer
-- is taken over, and no reading differs from the one before.

namespace LiveHighlight

namespace Nesting

theorem addAll_keeps {P : SpanSet → Prop} (keeps : ∀ s new, P s → P (s.insert new)) {s : SpanSet}
    (already : P s) (l : List Span) : P (addAll s l) := by
  induction l generalizing s with
  | nil => exact already
  | cons r rest ih => exact ih (keeps s r already)

theorem takeOut_perm {α : Type} {isMeant : α → Bool} {l : List α} {a : α}
    (found : l.find? isMeant = some a) : l.Perm (a :: takeOut isMeant l) := by
  obtain ⟨meant, before, behind, rfl, others⟩ := List.find?_eq_some_iff_append.mp found
  have place : (before ++ a :: behind).findIdx? isMeant = some before.length := by
    have nobody : before.findIdx? isMeant = none := by simpa using others
    simp [List.findIdx?_append, List.findIdx?_cons, nobody, meant]
  rcases List.eq_nil_or_concat behind with rfl | ⟨inner, last, whole⟩
  · simp [takeOut, place]
  · rw [List.concat_eq_append] at whole
    subst whole
    have final : (before ++ a :: (inner ++ [last])).getLast? = some last := by
      rw [← List.cons_append, ← List.append_assoc, List.getLast?_concat]
    have moved : ((before ++ a :: (inner ++ [last])).set before.length last).dropLast =
        before ++ last :: inner := by
      rw [List.set_append_right _ _ (Nat.le_refl _), Nat.sub_self, List.set_cons_zero,
        ← List.cons_append, ← List.append_assoc, List.dropLast_concat]
    simp only [takeOut, place, final, moved]
    refine List.perm_middle.trans ((List.Perm.append_left before ?_).cons a)
    exact List.perm_append_comm

variable {S L T : Type} [Compiling S L] [Parsing L T]

def Quiet (L : Type) {T : Type} [Parsing L T] : Prop :=
  ∀ (l : L) (tree : T), Parsing.changes l tree tree = []

variable {catalogue : Catalogue S L} {t : Text} {depth left : Nat} {r : Resolution L T}
  {i : Injection} {wanted : List Injection}

def Sublayer.Differs (a b : Sublayer L T) : Prop :=
  ¬ (a.depth = b.depth ∧ a.span = b.span ∧ Parsing.name a.language = Parsing.name b.language)

structure Retakable (catalogue : Catalogue S L) (t : Text) (l : List (Sublayer L T)) : Prop where
  fresh : ∀ s ∈ l, s.Fresh catalogue t
  read : ∀ s ∈ l, s.tree.isSome = true
  apart : l.Pairwise Sublayer.Differs

theorem Sublayer.Differs.symm {a b : Sublayer L T} (differs : a.Differs b) : b.Differs a :=
  fun same => differs ⟨same.1.symm, same.2.1.symm, same.2.2.symm⟩

instance : Std.Symm (Sublayer.Differs (L := L) (T := T)) := ⟨fun _ _ differs => differs.symm⟩

theorem Retakable.perm {l m : List (Sublayer L T)} (able : Retakable catalogue t l)
    (same : l.Perm m) : Retakable catalogue t m where
  fresh s member := able.fresh s (same.mem_iff.mpr member)
  read s member := able.read s (same.mem_iff.mpr member)
  apart := able.apart.perm same fun differs => differs.symm

theorem Retakable.behind {l m : List (Sublayer L T)} (able : Retakable catalogue t (l ++ m)) :
    Retakable catalogue t m where
  fresh s member := able.fresh s (List.mem_append_right l member)
  read s member := able.read s (List.mem_append_right l member)
  apart := (List.pairwise_append.mp able.apart).2.1

theorem changed_quiet (quiet : Quiet L) {l : L} {tree : Option T} (read : tree.isSome = true) :
    changed l tree tree t = [] := by
  obtain ⟨root, rfl⟩ := Option.isSome_iff_exists.mp read
  exact quiet l root

theorem Retakable.eq_of_same {l : List (Sublayer L T)} (able : Retakable catalogue t l)
    {a b : Sublayer L T} (first : a ∈ l) (second : b ∈ l)
    (same : a.depth = b.depth ∧ a.span = b.span ∧
      Parsing.name a.language = Parsing.name b.language) : a = b := by
  by_cases equal : a = b
  · exact equal
  · exact absurd same (able.apart.forall first second equal)

namespace Resolution

structure Suits (depth : Nat) (i : Injection) (s : Sublayer L T) : Prop where
  depth : s.depth = depth
  region : s.span = i.span
  name : Parsing.name s.language = i.language

-- A sublayer is taken over or given up, or there is none and the region is read anew.
inductive Places (catalogue : Catalogue S L) (t : Text) (depth : Nat) (r : Resolution L T)
    (i : Injection) : Option (Sublayer L T) → Resolution L T → Prop where
  | taken {s : Sublayer L T} {rest : List (Sublayer L T)} (suits : Suits depth i s)
      (parts : r.previous.Perm (s :: rest)) (ordered : Injection.inOrder i.pieces = true) :
      Places catalogue t depth r i
        (some { s with tree := Parsing.read s.language s.tree t (some i.pieces) })
        ⟨rest, addAll r.invalidated (changed s.language s.tree
          (Parsing.read s.language s.tree t (some i.pieces)) t)⟩
  | given {s : Sublayer L T} {rest : List (Sublayer L T)} (suits : Suits depth i s)
      (parts : r.previous.Perm (s :: rest)) (disordered : ¬ Injection.inOrder i.pieces = true) :
      Places catalogue t depth r i none ⟨rest, r.invalidated.insert i.span⟩
  | unknown {e : LanguageError} (missing : catalogue.language i.language = .error e) :
      Places catalogue t depth r i none r
  | fresh {l : L} (known : catalogue.language i.language = .ok l)
      (ordered : Injection.inOrder i.pieces = true) :
      Places catalogue t depth r i
        (some ⟨depth, i.span, l, Parsing.read l none t (some i.pieces)⟩) (r.invalidate i.span)
  | rejected {l : L} (known : catalogue.language i.language = .ok l)
      (disordered : ¬ Injection.inOrder i.pieces = true) :
      Places catalogue t depth r i none (r.invalidate i.span)

theorem place_places (catalogue : Catalogue S L) (t : Text) (depth : Nat) (r : Resolution L T)
    (i : Injection) : Places catalogue t depth r i (place catalogue t depth r i).1
      (place catalogue t depth r i).2 := by
  unfold place
  dsimp only
  split
  · rename_i s found
    have meant := List.find?_some found
    simp only [Bool.and_eq_true, beq_iff_eq] at meant
    obtain ⟨⟨depths, region⟩, name⟩ := meant
    split
    · rename_i ordered
      exact .taken ⟨depths, region, name⟩ (takeOut_perm found) ordered
    · rename_i disordered
      exact .given ⟨depths, region, name⟩ (takeOut_perm found) disordered
  · split
    · rename_i e missing
      exact .unknown missing
    · rename_i l known
      split
      · rename_i ordered
        exact .fresh known ordered
      · rename_i disordered
        exact .rejected known disordered

-- What holds of a set of spans, and of each that it grows into, holds of what is invalidated.
section Keeping

variable {P : SpanSet → Prop} (keeps : ∀ s new, P s → P (s.insert new))

include keeps

theorem place_keeps {r : Resolution L T} (already : P r.invalidated) (i : Injection) :
    P (place catalogue t depth r i).2.invalidated := by
  have ways := place_places catalogue t depth r i
  generalize (place catalogue t depth r i).1 = placed at ways
  generalize (place catalogue t depth r i).2 = next at ways
  cases ways with
  | taken => exact addAll_keeps keeps already _
  | given => exact keeps _ _ already
  | unknown => exact already
  | fresh => exact keeps _ _ already
  | rejected => exact keeps _ _ already

theorem placeAll_keeps {r : Resolution L T} (already : P r.invalidated)
    (wanted : List Injection) : P (placeAll catalogue t depth r wanted).2.invalidated := by
  induction wanted generalizing r with
  | nil => exact already
  | cons i rest ih => exact ih (place_keeps keeps already i)

theorem levels_keeps {left : Nat} {r : Resolution L T} (already : P r.invalidated)
    (wanted : List Injection) : P (levels catalogue t left depth r wanted).2.invalidated := by
  induction left generalizing depth r wanted with
  | zero => exact already
  | succ left ih =>
    rw [levels]
    split
    · exact already
    · exact ih (placeAll_keeps keeps already wanted) _

end Keeping

theorem place_retakes (quiet : Quiet L)
    (own : ∀ n k, catalogue.language n = .ok k → Parsing.name k = n)
    (able : Retakable catalogue t r.previous) {s : Sublayer L T}
    (found : sublayerOf? catalogue t depth i = some s) (member : s ∈ r.previous) :
    r.previous.Perm (s :: (place catalogue t depth r i).2.previous) ∧
      (place catalogue t depth r i).2.invalidated = r.invalidated := by
  obtain ⟨known, ordered, whole⟩ := sublayerOf?_exact.mp found
  have depths : s.depth = depth := congrArg Sublayer.depth whole
  have spans : s.span = i.span := congrArg Sublayer.span whole
  have trees : s.tree = Parsing.read s.language none t (some i.pieces) :=
    congrArg Sublayer.tree whole
  have names := own _ _ known
  -- No other sublayer looks the same, so the first that fits the region is this one.
  have meant : (r.previous.find? fun s : Sublayer L T => s.depth == depth && s.span == i.span &&
      Parsing.name s.language == i.language) = some s := by
    cases taken : r.previous.find? fun s : Sublayer L T => s.depth == depth &&
        s.span == i.span && Parsing.name s.language == i.language with
    | none =>
      have passed := List.find?_eq_none.mp taken s member
      simp [depths, spans, names] at passed
    | some other =>
      have same := List.find?_some taken
      simp only [Bool.and_eq_true, beq_iff_eq] at same
      have equal := able.eq_of_same (List.mem_of_find?_eq_some taken) member
        ⟨same.1.1.trans depths.symm, same.1.2.trans spans.symm, same.2.trans names.symm⟩
      rw [equal]
  have again : Parsing.read s.language s.tree t (some i.pieces) = s.tree :=
    ((able.fresh s member).reread _ ordered).trans trees.symm
  have same : changed s.language s.tree s.tree t = [] := changed_quiet quiet (able.read s member)
  have taken := takeOut_perm meant
  unfold place
  dsimp only
  rw [meant]
  dsimp only
  rw [if_pos ordered, again, same]
  exact ⟨taken, rfl⟩

theorem place_skips (able : Retakable catalogue t r.previous)
    (ordered : Injection.inOrder i.pieces = true)
    (missing : sublayerOf? (T := T) catalogue t depth i = none) :
    (place catalogue t depth r i).2 = r := by
  have unknown : ∃ e, catalogue.language i.language = .error e := by
    unfold sublayerOf? at missing
    split at missing
    · exact ⟨_, by assumption⟩
    · rw [if_pos ordered] at missing
      cases missing
  obtain ⟨e, unknown⟩ := unknown
  have nobody : (r.previous.find? fun s : Sublayer L T => s.depth == depth && s.span == i.span &&
      Parsing.name s.language == i.language) = none := by
    rw [List.find?_eq_none]
    intro s member same
    simp only [Bool.and_eq_true, beq_iff_eq] at same
    have named := (able.fresh s member).named
    rw [same.2, unknown] at named
    cases named
  unfold place
  dsimp only
  rw [nobody, unknown]

theorem placeAll_retakes (quiet : Quiet L)
    (own : ∀ n k, catalogue.language n = .ok k → Parsing.name k = n)
    (able : Retakable catalogue t r.previous) {rest : List (Sublayer L T)}
    (ordered : ∀ i ∈ wanted, Injection.inOrder i.pieces = true)
    (held : r.previous.Perm (wanted.filterMap (sublayerOf? catalogue t depth) ++ rest)) :
    (placeAll catalogue t depth r wanted).2.previous.Perm rest ∧
      (placeAll catalogue t depth r wanted).2.invalidated = r.invalidated := by
  induction wanted generalizing r with
  | nil => exact ⟨held, rfl⟩
  | cons i more ih =>
    have others : ∀ i ∈ more, Injection.inOrder i.pieces = true :=
      fun i member => ordered i (List.mem_cons_of_mem _ member)
    simp only [placeAll]
    cases found : sublayerOf? (T := T) catalogue t depth i with
    | none =>
      have first : Injection.inOrder i.pieces = true := ordered i (by simp)
      rw [place_skips able first found]
      rw [List.filterMap_cons_none found] at held
      exact ih able others held
    | some s =>
      rw [List.filterMap_cons_some found, List.cons_append] at held
      have member : s ∈ r.previous := held.mem_iff.mpr (by simp)
      obtain ⟨taken, same⟩ := place_retakes quiet own able found member
      have still := (able.perm taken).behind (l := [s])
      obtain ⟨final, whole⟩ := ih still others ((taken.symm.trans held).cons_inv)
      exact ⟨final, whole.trans same⟩

theorem levels_retakes (quiet : Quiet L)
    (own : ∀ n k, catalogue.language n = .ok k → Parsing.name k = n)
    (able : Retakable catalogue t r.previous) (rest : List (Sublayer L T))
    (ordered : ∀ i ∈ wanted, Injection.inOrder i.pieces = true)
    (nested : ∀ s ∈ sublayersOf catalogue t left depth wanted,
      ∀ i ∈ injections s.language s.tree t, Injection.inOrder i.pieces = true)
    (held : r.previous.Perm (sublayersOf catalogue t left depth wanted ++ rest)) :
    (levels catalogue t left depth r wanted).2.previous.Perm rest ∧
      (levels catalogue t left depth r wanted).2.invalidated = r.invalidated := by
  induction left generalizing depth r wanted with
  | zero => exact ⟨held, rfl⟩
  | succ left ih =>
    rw [levels]
    split
    · rename_i nothing
      rw [List.isEmpty_iff.mp nothing, sublayersOf_nil] at held
      exact ⟨held, rfl⟩
    · -- This level takes its own sublayers out; those of the deeper levels are left for them.
      rw [sublayersOf, List.append_assoc] at held
      obtain ⟨taken, same⟩ := placeAll_retakes quiet own able ordered held
      obtain ⟨placed, fewer⟩ := placeAll_reads able.fresh depth wanted
      have still : Retakable catalogue t (placeAll catalogue t depth r wanted).2.previous :=
        (able.perm held).behind.perm taken.symm
      dsimp only
      rw [placed]
      obtain ⟨final, whole⟩ := ih still (by
        intro i member
        obtain ⟨s, here, found⟩ := List.mem_flatMap.mp member
        exact nested s (List.mem_append_left _ here) i found)
        (fun s deeper => nested s (List.mem_append_right _ deeper)) taken
      exact ⟨final, whole.trans same⟩

end Resolution

namespace TreeLayer

variable {valid : Text → Prop} {l : TreeLayer S L T}

theorem resolve_keeps {P : SpanSet → Prop} (keeps : ∀ s new, P s → P (s.insert new))
    {invalidated : SpanSet} (already : P invalidated) (l : TreeLayer S L T) (t : Text) :
    P (l.resolve t invalidated).2 :=
  addAll_keeps keeps (Resolution.levels_keeps keeps already _) _

theorem refresh_keeps {P : SpanSet → Prop} (keeps : ∀ s new, P s → P (s.insert new))
    {affecting : SpanSet} (already : P affecting) (l : TreeLayer S L T) (t : Text)
    (withEmbedded : Bool) : P (l.refresh t affecting withEmbedded).2 := by
  have root := addAll_keeps keeps already
    (changed l.language l.tree (Parsing.read l.language l.tree t none) t)
  cases withEmbedded with
  | false => exact root
  | true => exact resolve_keeps keeps root _ t

theorem refresh_grows (l : TreeLayer S L T) (t : Text) (affecting : SpanSet)
    (withEmbedded : Bool) : affecting.Grows (l.refresh t affecting withEmbedded).2 :=
  refresh_keeps (fun s new grows => grows.trans (SpanSet.insert_grows s new))
    (SpanSet.Grows.refl affecting) l t withEmbedded

theorem refresh_tree (faithful : Faithful L valid) (held : valid t) (inStep : InStep valid l t)
    (affecting : SpanSet) (withEmbedded : Bool) :
    (l.refresh t affecting withEmbedded).1.tree = Parsing.read l.language none t none := by
  have root := reread faithful held inStep.root none rfl
  unfold refresh
  dsimp only
  split <;> exact root

-- Asked again about the same text, a layer stays as it is.
theorem refresh_again (faithful : Faithful L valid) (named : l.catalogue.Named) (held : valid t)
    (inStep : InStep valid l t) (affecting later : SpanSet) (withEmbedded : Bool) :
    ((l.refresh t affecting withEmbedded).1.refresh t later withEmbedded).1 =
      (l.refresh t affecting withEmbedded).1 := by
  cases withEmbedded with
  | true =>
    rw [refresh_reads faithful held inStep, refresh_reads faithful held (load_inStep named held),
      load_alike (load_from l t)]
  | false =>
    have after := refresh_inStep faithful named held inStep affecting false
    have root := reread faithful held after.root none rfl
    have tree := refresh_tree faithful held inStep affecting false
    have same : Parsing.read l.language (Parsing.read l.language l.tree t none) t none =
        Parsing.read l.language l.tree t none := root.trans tree.symm
    simp only [refresh, Bool.false_eq_true, if_false, same]

structure Plain (l : TreeLayer S L T) (t : Text) : Prop where
  own : ∀ n k, l.catalogue.language n = .ok k → Parsing.name k = n
  root : l.tree.isSome = true
  nested : ∀ s ∈ l.sublayers, s.tree.isSome = true
  apart : l.sublayers.Pairwise Sublayer.Differs
  ordered : ∀ i ∈ injections l.language l.tree t, Injection.inOrder i.pieces = true
  within : ∀ s ∈ l.sublayers, ∀ i ∈ injections s.language s.tree t,
    Injection.inOrder i.pieces = true

theorem refresh_quiet (quiet : Quiet L) (faithful : Faithful L valid) (held : valid t)
    (inStep : InStep valid l t) (plain : Plain l t)
    (read : l.tree = Parsing.read l.language none t none) (affecting : SpanSet)
    {withEmbedded : Bool} (settled : withEmbedded = true → l = load l t) :
    (l.refresh t affecting withEmbedded).2 = affecting := by
  have again : Parsing.read l.language l.tree t none = l.tree :=
    (reread faithful held inStep.root none rfl).trans read.symm
  have silent : changed l.language l.tree l.tree t = [] := changed_quiet quiet plain.root
  cases withEmbedded with
  | false =>
    simp only [refresh, again, silent]
    rfl
  | true =>
    have whole := settled rfl
    have sublayers : l.sublayers = sublayersOf l.catalogue t l.maxDepth 1
        (injections l.language l.tree t) := by
      rw [read, ← (load_reads l t).2, ← whole]
    have fresh : ∀ s ∈ l.sublayers, s.Fresh l.catalogue t := fun s member =>
      ⟨inStep.named s member, fun pieces ordered =>
        TreeLayer.reread faithful held (inStep.nested s member) _ ordered⟩
    have able : Retakable l.catalogue t l.sublayers := ⟨fresh, plain.nested, plain.apart⟩
    obtain ⟨rest, same⟩ := Resolution.levels_retakes (r := ⟨l.sublayers, affecting⟩) quiet
      plain.own able [] plain.ordered (sublayers ▸ plain.within)
      (by rw [sublayers, List.append_nil])
    simp only [refresh, resolve, if_true, again, silent, addAll, List.foldl_nil]
    rw [List.perm_nil.mp rest, same]
    rfl

end TreeLayer

end Nesting

end LiveHighlight
