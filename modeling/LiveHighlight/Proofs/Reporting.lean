import LiveHighlight.Proofs.Rereading
import LiveHighlight.Proofs.Retaking

-- A layer of trees reports every change of its sublayers. A sublayer that was there is taken over,
-- or its region is reported; one that comes to be has its region reported.

namespace LiveHighlight.Nesting

variable {S L T : Type} [Compiling S L] [Parsing L T]

structure Key where
  depth : Nat
  span : Span
  name : String
  deriving DecidableEq

def Sublayer.key (s : Sublayer L T) : Key := ⟨s.depth, s.span, Parsing.name s.language⟩

def count (k : Key) (l : List (Sublayer L T)) : Nat := (l.map Sublayer.key).count k

variable {k : Key} {l m : List (Sublayer L T)} {s : Sublayer L T} {held : Span}

theorem count_append : count k (l ++ m) = count k l + count k m := by
  rw [count, List.map_append, List.count_append]
  rfl

theorem count_cons : count k (s :: l) = count k [s] + count k l := count_append (l := [s])

theorem count_perm (same : l.Perm m) : count k l = count k m := (same.map Sublayer.key).count_eq k

theorem count_other (other : s.key ≠ k) : count k [s] = 0 :=
  List.count_eq_zero.mpr fun member => other (List.mem_singleton.mp member).symm

theorem span_listed (some : count k l ≠ 0) : k.span ∈ l.map (·.span) := by
  obtain ⟨s, member, same⟩ := List.mem_map.mp (List.count_pos_iff.mp (Nat.pos_of_ne_zero some))
  exact List.mem_map.mpr ⟨s, member, congrArg Key.span same⟩

theorem holds_kept (s : SpanSet) (new : Span) (already : s.Holds held) :
    (s.insert new).Holds held := SpanSet.insert_holds already new

namespace Resolution

variable {catalogue : Catalogue S L} {t : Text} {depth left : Nat} {r next final : Resolution L T}
  {i : Injection} {wanted : List Injection} {found more : List (Sublayer L T)}

-- Those of one key are found again or left over, or what is invalidated holds their region.
def Accounts (k : Key) (r : Resolution L T) (found : List (Sublayer L T))
    (next : Resolution L T) : Prop :=
  next.invalidated.Holds k.span ∨
    count k r.previous = count k found + count k next.previous

theorem Accounts.trans (first : Accounts k r found next) (second : Accounts k next more final)
    (keeps : next.invalidated.Holds k.span → final.invalidated.Holds k.span) :
    Accounts k r (found ++ more) final := by
  rcases first with reported | same
  · exact .inl (keeps reported)
  · rcases second with reported | rest
    · exact .inl reported
    · refine .inr ?_
      rw [same, rest, count_append, Nat.add_assoc]

theorem insert_accounts (proper : k.span.Proper) (own : k.span = i.span)
    (marked : next.invalidated = r.invalidated.insert i.span) : Accounts k r found next := by
  rw [own] at proper
  refine .inl ?_
  rw [marked, own]
  exact SpanSet.insert_own proper

theorem place_accounts (proper : k.span.Proper) (r : Resolution L T) (i : Injection) :
    Accounts k r (place catalogue t depth r i).1.toList (place catalogue t depth r i).2 := by
  have ways := place_places catalogue t depth r i
  generalize (place catalogue t depth r i).1 = placed at ways ⊢
  generalize (place catalogue t depth r i).2 = next at ways ⊢
  cases ways with
  | taken suits parts => exact .inr ((count_perm parts).trans count_cons)
  | @given s rest suits parts =>
    by_cases same : s.key = k
    · have own : k.span = i.span := same ▸ suits.region
      exact insert_accounts proper own rfl
    · refine .inr ?_
      rw [count_perm parts, count_cons, count_other same]
      rfl
  | unknown => exact .inr (Nat.zero_add _).symm
  | @fresh l =>
    by_cases own : k.span = i.span
    · exact insert_accounts proper own rfl
    · have other : Sublayer.key ⟨depth, i.span, l, Parsing.read l none t (some i.pieces)⟩ ≠ k :=
        fun same => own (congrArg Key.span same).symm
      refine .inr ?_
      rw [Option.toList_some, count_other other, Nat.zero_add]
      rfl
  | rejected => exact .inr (Nat.zero_add _).symm

theorem placeAll_accounts (proper : k.span.Proper) (r : Resolution L T)
    (wanted : List Injection) :
    Accounts k r (placeAll catalogue t depth r wanted).1
      (placeAll catalogue t depth r wanted).2 := by
  induction wanted generalizing r with
  | nil => exact .inr (Nat.zero_add _).symm
  | cons i rest ih =>
    exact (place_accounts proper r i).trans (ih _)
      fun reported => placeAll_keeps holds_kept reported rest

theorem levels_accounts (proper : k.span.Proper) (catalogue : Catalogue S L) (t : Text)
    (left depth : Nat) (r : Resolution L T) (wanted : List Injection) :
    Accounts k r (levels catalogue t left depth r wanted).1
      (levels catalogue t left depth r wanted).2 := by
  induction left generalizing depth r wanted with
  | zero => exact .inr (Nat.zero_add _).symm
  | succ left ih =>
    rw [levels]
    split
    · exact .inr (Nat.zero_add _).symm
    · exact (placeAll_accounts proper r wanted).trans (ih _ _ _)
        fun reported => levels_keeps holds_kept reported _

end Resolution

namespace TreeLayer

theorem resolve_reports (l : TreeLayer S L T) (t : Text) (invalidated : SpanSet)
    (proper : k.span.Proper) (differs : count k l.sublayers ≠
      count k (l.resolve t invalidated).1.sublayers) :
    (l.resolve t invalidated).2.Holds k.span := by
  have accounts := Resolution.levels_accounts proper l.catalogue t l.maxDepth 1
    ⟨l.sublayers, invalidated⟩ (injections l.language l.tree t)
  unfold resolve at differs ⊢
  dsimp only at differs ⊢
  rcases accounts with reported | same
  · exact addAll_keeps holds_kept reported _
  · refine SpanSet.insertAll_holds proper (.inl (span_listed fun nothing => ?_))
    rw [nothing, Nat.add_zero] at same
    exact differs same

-- Of a reversed region there is nothing to report.
theorem refresh_reports_sublayers (l : TreeLayer S L T) (t : Text) (affecting : SpanSet) :
    (∀ r ∈ affecting.spans, (l.refresh t affecting true).2.Holds r) ∧
    ∀ k : Key, k.span.Proper →
      count k l.sublayers ≠ count k (l.refresh t affecting true).1.sublayers →
      (l.refresh t affecting true).2.Holds k.span := by
  constructor
  · intro r member
    have told : affecting.Holds r := ⟨r, member, Nat.le_refl _, Nat.le_refl _⟩
    exact refresh_keeps holds_kept told l t true
  · intro k proper differs
    exact resolve_reports _ t _ proper differs

end TreeLayer

end LiveHighlight.Nesting

namespace LiveHighlight.Embedding

open Nesting

-- A key that named a language no longer does, and the value has grown.
def parted : TreeLayer :=
  (Queue.drain (Session.start keyed (pairText ['j', '2'] ['[', '1', ']']) {})
    [.edit (.replace ⟨2, 4⟩ ['n', 'o']), .edit (.insert 10 [',', '2'])]).1.layer

theorem refresh_reports_sublayers_parted :
    let t := pairText ['n', 'o'] ['[', '1', ',', '2', ']']
    let k : Key := ⟨1, ⟨8, 13⟩, "j2"⟩
    count k parted.sublayers = 1 ∧
      count k (parted.refresh t (.ofSpan ⟨2, 4⟩) true).1.sublayers = 0 ∧
      (parted.refresh t (.ofSpan ⟨2, 4⟩) true).2.Holds ⟨2, 4⟩ ∧
      (parted.refresh t (.ofSpan ⟨2, 4⟩) true).2.Holds ⟨8, 13⟩ := by
  intro t k
  have before : count k parted.sublayers = 1 := by decide +kernel
  have after : count k (parted.refresh t (.ofSpan ⟨2, 4⟩) true).1.sublayers = 0 := by
    decide +kernel
  obtain ⟨told, reports⟩ := TreeLayer.refresh_reports_sublayers parted t (.ofSpan ⟨2, 4⟩)
  have proper : k.span.Proper := (by decide : 8 ≤ 13)
  refine ⟨before, after, told ⟨2, 4⟩ (by decide), reports k proper ?_⟩
  rw [before, after]
  exact Nat.one_ne_zero

end LiveHighlight.Embedding
