import DeclEdit.Refusal
import DeclEdit.Sequence

/-!
# Rankings

A ranking gives every kind of item a rank and every rank its kind. It is lawful when the two are
inverse to each other on the first `count` ranks. A new item goes behind the last item of its own
kind or, failing that, of the nearest kind ranked before it that occurs at all.
-/

namespace DeclEdit

structure Ranking (κ : Type) where
  rank : κ → Nat
  kindAt? : Nat → Option κ

namespace Ranking

variable {κ : Type}

/-- Every kind has one of the first `count` ranks, and each of these ranks has its kind. -/
structure Lawful (ranking : Ranking κ) (count : Nat) : Prop where
  rank_lt : ∀ kind, ranking.rank kind < count
  kindAt?_rank : ∀ kind, ranking.kindAt? (ranking.rank kind) = some kind
  rank_kindAt? : ∀ rank, rank < count → ∃ kind, ranking.kindAt? rank = some kind ∧
    ranking.rank kind = rank

/-- A table without repeats that has every kind at its rank makes the ranks lawful. -/
theorem lawful_of_table {rank : κ → Nat} {table : List κ} (hnodup : table.Nodup)
    (htable : ∀ kind, table[rank kind]? = some kind) :
    (Ranking.mk rank (table[·]?)).Lawful table.length where
  rank_lt kind := (List.getElem?_eq_some_iff.1 (htable kind)).1
  kindAt?_rank := htable
  rank_kindAt? index hindex := by
    refine ⟨table[index], List.getElem?_eq_getElem hindex, ?_⟩
    obtain ⟨hlt, hkind⟩ := List.getElem?_eq_some_iff.1 (htable table[index])
    exact (List.getElem_inj hnodup).1 hkind

variable [DecidableEq κ]

/-- The kinds ranked as listed. -/
def ofList (kinds : List κ) : Ranking κ := ⟨kinds.idxOf, (kinds[·]?)⟩

/-- A list of all kinds without repeats ranks them lawfully. -/
theorem lawful_ofList {kinds : List κ} (hnodup : kinds.Nodup) (hall : ∀ kind, kind ∈ kinds) :
    (ofList kinds).Lawful kinds.length := by
  refine lawful_of_table hnodup ?_
  intro kind
  have hlt := List.idxOf_lt_length_of_mem (hall kind)
  rw [List.getElem?_eq_getElem hlt, List.getElem_idxOf]

/-- The search below a rank goes downwards and ends at the first kind that occurs. A rank without
a kind on the way is an error. -/
def indexBelow (kindAt? : Nat → Option κ) (items : List κ) : Nat → Except Refusal Nat
  | 0 => .ok 0
  | rank + 1 =>
    match kindAt? rank with
    | none => .error (.rankGap rank)
    | some kind =>
      match afterLast? (· = kind) items with
      | some index => .ok index
      | none => indexBelow kindAt? items rank

/-- Where an item of the given rank goes. -/
def indexOfRank (kindAt? : Nat → Option κ) (items : List κ) (rank : Nat) : Except Refusal Nat :=
  indexBelow kindAt? items (rank + 1)

/-- Where an item of the given kind goes. -/
def insertIndex (ranking : Ranking κ) (items : List κ) (kind : κ) : Except Refusal Nat :=
  indexOfRank ranking.kindAt? items (ranking.rank kind)

/-- Whether the items come in the order of their ranks. -/
def isSorted (ranking : Ranking κ) (items : List κ) : Bool :=
  ascending (fun a b => decide (ranking.rank a ≤ ranking.rank b)) items

/-- The first item that has come before. -/
def firstRepeat? (seen : List κ) : List κ → Option κ
  | [] => none
  | kind :: rest => if kind ∈ seen then some kind else firstRepeat? (kind :: seen) rest

end Ranking

end DeclEdit
