import Mathlib.Logic.Hydra
import LiveHighlight.Proofs.Resolving

-- Embedded regions read from one agenda, which the regions found in each join at the end. It runs
-- out, whatever the languages find, and leaves what reading level by level gives.

namespace LiveHighlight.Nesting

variable {S L T : Type}

def Entry.Yields [Compiling S L] : Entry S L → L → Prop
  | .pending s, l => Compiling.compile s = .ok l
  | .ready own, l => own = l

namespace Catalogue

variable [Compiling S L] {catalogue : Catalogue S L} {l : L}

theorem language_pending {name : String} {s : S}
    (entered : catalogue.entry? name = some (.pending s)) :
    catalogue.language name = Compiling.compile s := by
  unfold language lookup
  rw [entered]
  dsimp only
  cases Compiling.compile (L := L) s with
  | error refusal => rfl
  | ok own => rfl

theorem language_alike {c : Catalogue S L} {name : String}
    (same : c.entry? name = catalogue.entry? name) : c.language name = catalogue.language name := by
  cases entered : catalogue.entry? name with
  | none => simp [language, lookup, same, entered]
  | some e =>
    rw [entered] at same
    cases e with
    | ready own => simp [language, lookup, same, entered]
    | pending s => rw [language_pending same, language_pending entered]

theorem language_exact (catalogue : Catalogue S L) (name : String) :
    catalogue.language name = .ok l ↔ ∃ e, catalogue.entry? name = some e ∧ e.Yields l := by
  cases entered : catalogue.entry? name with
  | none => simp [language, lookup, entered]
  | some e =>
    cases e with
    | ready own => simp [language, lookup, entered, Entry.Yields]
    | pending s => simp [language_pending entered, Entry.Yields]

theorem language_kept (catalogue : Catalogue S L) (asked name : String) :
    (catalogue.lookup asked).catalogue.language name = catalogue.language name := by
  unfold lookup
  split
  · rfl
  · rfl
  · rename_i s pending
    split
    · rfl
    · rename_i own compiled
      have entered : Catalogue.entry? ⟨put asked (.ready own) catalogue.entries⟩ name =
          if asked = name then some (.ready own) else catalogue.entry? name := by
        simp only [find?_put, entry?]
        split <;> rfl
      by_cases same : asked = name
      · subst same
        rw [if_pos rfl] at entered
        rw [language_pending pending, compiled, language, lookup, entered]
      · rw [if_neg same] at entered
        exact language_alike entered

end Catalogue

-- The regions that wait, each with its depth, and what those before them have come to.
structure Agenda (S L T : Type) where
  waiting : List (Nat × Injection)
  catalogue : Catalogue S L
  found : List (Sublayer L T)
  resolution : Resolution L T

variable [Compiling S L] [Parsing L T]

def below (t : Text) (maxDepth depth : Nat) (found : List (Sublayer L T)) :
    List (Nat × Injection) :=
  if depth < maxDepth then
    (found.flatMap fun s => injections s.language s.tree t).map (depth + 1, ·)
  else []

namespace Agenda

-- A language is looked up only where there is no sublayer to take over.
def asked (a : Agenda S L T) (depth : Nat) (i : Injection) : Catalogue S L :=
  match a.resolution.previous.find? (fun s : Sublayer L T =>
    s.depth == depth && s.span == i.span && Parsing.name s.language == i.language) with
  | some _ => a.catalogue
  | none => (a.catalogue.lookup i.language).catalogue

def turn? (t : Text) (maxDepth : Nat) (a : Agenda S L T) : Option (Agenda S L T) :=
  match a.waiting with
  | [] => none
  | (depth, i) :: rest =>
    if maxDepth < depth then some { a with waiting := rest }
    else
      let (placed, next) := Resolution.place a.catalogue t depth a.resolution i
      some ⟨rest ++ below t maxDepth depth placed.toList, a.asked depth i,
        a.found ++ placed.toList, next⟩

variable {t : Text} {maxDepth depth : Nat} {a b final : Agenda S L T}
  {catalogue c : Catalogue S L} {found : List (Sublayer L T)} {r : Resolution L T}

def depthsLeft (maxDepth : Nat) (a : Agenda S L T) : Multiset Nat :=
  a.waiting.map fun entry => maxDepth + 1 - entry.1

theorem turn_cuts (turned : turn? t maxDepth a = some b) :
    Relation.CutExpand (· < ·) (b.depthsLeft maxDepth) (a.depthsLeft maxDepth) := by
  obtain ⟨waiting, catalogue, found, r⟩ := a
  cases waiting with
  | nil => cases turned
  | cons entry rest =>
    obtain ⟨depth, i⟩ := entry
    simp only [turn?] at turned
    split at turned
    · cases Option.some.inj turned
      refine ⟨0, maxDepth + 1 - depth, nofun, ?_⟩
      simp only [depthsLeft, List.map_cons, add_zero]
      exact Multiset.coe_eq_coe.mpr List.perm_append_comm
    · rename_i reached
      cases Option.some.inj turned
      generalize (Resolution.place catalogue t depth r i).1.toList = placed
      refine ⟨((below t maxDepth depth placed).map fun entry => maxDepth + 1 - entry.1 :
        List Nat), maxDepth + 1 - depth, ?_, ?_⟩
      · intro left member
        obtain ⟨entry, listed, rfl⟩ := List.mem_map.mp (Multiset.mem_coe.mp member)
        unfold below at listed
        split at listed
        · obtain ⟨j, -, rfl⟩ := List.mem_map.mp listed
          dsimp only
          omega
        · cases listed
      · simp only [depthsLeft, List.map_cons, List.map_append, ← Multiset.coe_add,
          ← Multiset.cons_coe, Multiset.cons_add]
        rw [add_comm, Multiset.singleton_add]

theorem turns_end (t : Text) (maxDepth : Nat) :
    WellFounded fun b a : Agenda S L T => turn? t maxDepth a = some b :=
  Subrelation.wf turn_cuts (InvImage.wf (depthsLeft maxDepth) Nat.lt_wfRel.wf.cutExpand)

inductive Drains (t : Text) (maxDepth : Nat) : Agenda S L T → Agenda S L T → Prop where
  | done {a : Agenda S L T} (ended : turn? t maxDepth a = none) : Drains t maxDepth a a
  | turn {a b final : Agenda S L T} (turned : turn? t maxDepth a = some b)
      (rest : Drains t maxDepth b final) : Drains t maxDepth a final

theorem Drains.unique (first : Drains t maxDepth a b) (second : Drains t maxDepth a final) :
    b = final := by
  induction first with
  | done ended =>
    cases second with
    | done => rfl
    | turn turned => cases ended.symm.trans turned
  | turn turned _ ih =>
    cases second with
    | done ended => cases turned.symm.trans ended
    | turn again rest =>
      cases turned.symm.trans again
      exact ih rest

theorem below_append (more : List (Sublayer L T)) :
    below t maxDepth depth (found ++ more) =
      below t maxDepth depth found ++ below t maxDepth depth more := by
  unfold below
  split
  · rw [List.flatMap_append, List.map_append]
  · rfl

theorem place_alike (same : ∀ n, c.language n = catalogue.language n) (i : Injection) :
    Resolution.place c t depth r i = Resolution.place catalogue t depth r i := by
  simp only [Resolution.place, same]

theorem asked_alike (same : ∀ n, a.catalogue.language n = catalogue.language n) (i : Injection)
    (n : String) : (a.asked depth i).language n = catalogue.language n := by
  unfold asked
  split
  · exact same n
  · exact (Catalogue.language_kept _ _ n).trans (same n)

-- The regions of one depth are read in order, and all that is found in them joins the end.
theorem placeAll_drains (reached : depth ≤ maxDepth)
    (same : ∀ n, c.language n = catalogue.language n) (wanted : List Injection)
    (more : List (Nat × Injection)) (found : List (Sublayer L T)) (r : Resolution L T) :
    ∃ d : Catalogue S L, (∀ n, d.language n = catalogue.language n) ∧ ∀ final,
      Drains t maxDepth
        ⟨more ++ below t maxDepth depth (Resolution.placeAll catalogue t depth r wanted).1, d,
          found ++ (Resolution.placeAll catalogue t depth r wanted).1,
          (Resolution.placeAll catalogue t depth r wanted).2⟩ final →
      Drains t maxDepth ⟨wanted.map (depth, ·) ++ more, c, found, r⟩ final := by
  induction wanted generalizing c more found r with
  | nil =>
    refine ⟨c, same, fun final drains => ?_⟩
    have nothing : below t maxDepth depth ([] : List (Sublayer L T)) = [] := by simp [below]
    simpa only [Resolution.placeAll, nothing, List.append_nil, List.map_nil,
      List.nil_append] using drains
  | cons i rest ih =>
    have next (n : String) :
        (asked ⟨[], c, found, r⟩ depth i).language n = catalogue.language n := asked_alike same i n
    obtain ⟨d, alike, drains⟩ := ih next
      (more ++ below t maxDepth depth (Resolution.place catalogue t depth r i).1.toList)
      (found ++ (Resolution.place catalogue t depth r i).1.toList)
      (Resolution.place catalogue t depth r i).2
    refine ⟨d, alike, fun final after => .turn ?_ (drains final ?_)⟩
    · simp only [List.map_cons, List.cons_append, turn?, if_neg (Nat.not_lt.mpr reached),
        place_alike same, List.append_assoc]
      rfl
    · simpa only [Resolution.placeAll, below_append, List.append_assoc] using after

theorem dropped_drains (beyond : maxDepth < depth) (wanted : List Injection) :
    Drains t maxDepth ⟨wanted.map (depth, ·), c, found, r⟩ ⟨[], c, found, r⟩ := by
  induction wanted with
  | nil => exact .done rfl
  | cons i rest ih => exact .turn (if_pos beyond) ih

theorem levels_drains {left : Nat} (limit : depth + left = maxDepth + 1)
    (same : ∀ n, c.language n = catalogue.language n) (wanted : List Injection)
    (found : List (Sublayer L T)) (r : Resolution L T) :
    ∃ d : Catalogue S L, Drains t maxDepth ⟨wanted.map (depth, ·), c, found, r⟩
      ⟨[], d, found ++ (Resolution.levels catalogue t left depth r wanted).1,
        (Resolution.levels catalogue t left depth r wanted).2⟩ := by
  induction left generalizing c depth wanted found r with
  | zero =>
    refine ⟨c, ?_⟩
    rw [Resolution.levels, List.append_nil]
    exact dropped_drains (by omega) wanted
  | succ left ih =>
    rw [Resolution.levels]
    split
    · rename_i nothing
      rw [List.isEmpty_iff.mp nothing, List.append_nil]
      exact ⟨c, .done rfl⟩
    · have reached : depth ≤ maxDepth := by omega
      obtain ⟨d, alike, drains⟩ := placeAll_drains (t := t) reached same wanted [] found r
      simp only [List.append_nil, List.nil_append] at drains
      generalize Resolution.placeAll catalogue t depth r wanted = parts at drains ⊢
      obtain ⟨here, next⟩ := parts
      by_cases more : depth < maxDepth
      · have deeper : depth + 1 + left = maxDepth + 1 := by omega
        obtain ⟨e, rest⟩ := ih deeper alike
          (here.flatMap fun s => injections s.language s.tree t) (found ++ here) next
        refine ⟨e, drains _ ?_⟩
        rw [below, if_pos more]
        simpa only [List.append_assoc] using rest
      · obtain rfl : left = 0 := by omega
        refine ⟨d, drains _ ?_⟩
        simp only [below, if_neg more, Resolution.levels, List.append_nil]
        exact .done rfl

end Agenda

namespace TreeLayer

def agenda (l : TreeLayer S L T) (t : Text) (invalidated : SpanSet) : Agenda S L T :=
  ⟨(injections l.language l.tree t).map (1, ·), l.catalogue, [], ⟨l.sublayers, invalidated⟩⟩

theorem agenda_drains (l : TreeLayer S L T) (t : Text) (invalidated : SpanSet) :
    ∃ final, Agenda.Drains t l.maxDepth (l.agenda t invalidated) final ∧ final.waiting = [] ∧
      l.resolve t invalidated = ({ l with sublayers := final.found },
        addAll final.resolution.invalidated (final.resolution.previous.map (·.span))) := by
  have same : ∀ n, l.catalogue.language n = l.catalogue.language n := fun _ => rfl
  obtain ⟨d, drains⟩ := Agenda.levels_drains (t := t) (Nat.add_comm 1 l.maxDepth) same
    (injections l.language l.tree t) [] ⟨l.sublayers, invalidated⟩
  exact ⟨_, drains, rfl, rfl⟩

end TreeLayer

end LiveHighlight.Nesting
