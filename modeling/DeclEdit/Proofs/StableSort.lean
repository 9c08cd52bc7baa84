import DeclEdit.Proofs.InsertionIndex
import Mathlib.Data.List.Pairwise

/-!
# Stable sorting

A stable sort is a permutation that ascends and keeps items that tie in their old order. There is
only one for each list, so whatever makes a stably sorted list makes the list that `mergeSort`
gives. In particular, a new item may be inserted into the sorted list in place of the list itself,
if it goes behind all items it ties with there and parts the smaller items from the greater here.
-/

namespace DeclEdit

variable {α : Type} {le : α → α → Bool} {items sorted : List α}

/-- Among the items, the relation is transitive and compares any two. -/
structure TotalOn (le : α → α → Bool) (items : List α) : Prop where
  trans : ∀ a ∈ items, ∀ b ∈ items, ∀ c ∈ items, le a b = true → le b c = true → le a c = true
  total : ∀ a ∈ items, ∀ b ∈ items, le a b = true ∨ le b a = true

namespace TotalOn

theorem of_subset (h : TotalOn le items) {fewer : List α} (hfewer : fewer ⊆ items) :
    TotalOn le fewer where
  trans a ha b hb c hc := h.trans a (hfewer ha) b (hfewer hb) c (hfewer hc)
  total a ha b hb := h.total a (hfewer ha) b (hfewer hb)

theorem refl (h : TotalOn le items) {x : α} (hx : x ∈ items) : le x x = true :=
  (h.total x hx x hx).elim id id

theorem le_of_not_le (h : TotalOn le items) {x y : α} (hx : x ∈ items) (hy : y ∈ items)
    (hle : le x y = false) : le y x = true := by
  refine (h.total x hx y hy).resolve_left ?_
  intro htrue
  rw [hle] at htrue
  cases htrue

instance : Decidable (TotalOn le items) :=
  decidable_of_iff
    ((∀ a ∈ items, ∀ b ∈ items, ∀ c ∈ items, le a b = true → le b c = true → le a c = true) ∧
      ∀ a ∈ items, ∀ b ∈ items, le a b = true ∨ le b a = true)
    ⟨fun h => ⟨h.1, h.2⟩, fun h => ⟨h.trans, h.total⟩⟩

end TotalOn

theorem totalOn_rank (rank : α → Nat) (items : List α) :
    TotalOn (fun a b => decide (rank a ≤ rank b)) items := by
  constructor
  · intro a _ b _ c _ hab hbc
    rw [decide_eq_true_iff] at hab hbc ⊢
    exact Nat.le_trans hab hbc
  · intro a _ b _
    rw [decide_eq_true_iff, decide_eq_true_iff]
    exact Nat.le_total ..

/-- Each of the two may come first. -/
def tied (le : α → α → Bool) (x y : α) : Bool := le x y && le y x

theorem tied_eq_true_iff {x y : α} : tied le x y = true ↔ le x y = true ∧ le y x = true :=
  Bool.and_eq_true_iff

theorem TotalOn.tied_trans (h : TotalOn le items) {x y z : α} (hx : x ∈ items) (hy : y ∈ items)
    (hz : z ∈ items) (hxy : tied le x y = true) (hyz : tied le y z = true) :
    tied le x z = true := by
  rw [tied_eq_true_iff] at hxy hyz ⊢
  exact ⟨h.trans x hx y hy z hz hxy.1 hyz.1, h.trans z hz y hy x hx hyz.2 hxy.2⟩

theorem tied_symm {x y : α} (h : tied le x y = true) : tied le y x = true := by
  rw [tied_eq_true_iff] at h ⊢
  exact h.symm

/-- The second list is the first one, sorted without changing the order of items that tie. -/
structure StablySorted (le : α → α → Bool) (items sorted : List α) : Prop where
  perm : sorted.Perm items
  ascending : sorted.Pairwise (le · · = true)
  stable : ∀ x ∈ items, sorted.filter (tied le x) = items.filter (tied le x)

theorem StablySorted.of_ascending (h : items.Pairwise (le · · = true)) :
    StablySorted le items items :=
  ⟨.refl items, h, fun _ _ => rfl⟩

/-- Items may be sorted by a key before or after they are turned into it. -/
theorem StablySorted.map {β : Type} {items sorted : List β} (key : β → α)
    (h : StablySorted (fun x y => le (key x) (key y)) items sorted) :
    StablySorted le (items.map key) (sorted.map key) := by
  refine ⟨h.perm.map key, List.pairwise_map.2 h.ascending, ?_⟩
  intro x hx
  obtain ⟨y, hy, rfl⟩ := List.mem_map.1 hx
  rw [List.filter_map, List.filter_map]
  exact congrArg (List.map key) (h.stable y hy)

/-! ### There is only one -/

theorem StablySorted.eq_of_ascending (h : StablySorted le items sorted) (htotal : TotalOn le items)
    (hitems : items.Pairwise (le · · = true)) : sorted = items := by
  induction items generalizing sorted with
  | nil => exact h.perm.eq_nil
  | cons x rest ih =>
    cases sorted with
    | nil => cases h.perm.symm.eq_nil
    | cons y others =>
      have hx : x ∈ y :: others := h.perm.mem_iff.2 List.mem_cons_self
      have hy : y ∈ x :: rest := h.perm.mem_iff.1 List.mem_cons_self
      have hxx : le x x = true := htotal.refl List.mem_cons_self
      have hyy : le y y = true := htotal.refl hy
      have hxy : le x y = true := by
        rcases List.mem_cons.1 hy with rfl | hy
        · exact hxx
        · exact List.rel_of_pairwise_cons hitems hy
      have hyx : le y x = true := by
        rcases List.mem_cons.1 hx with rfl | hx
        · exact hyy
        · exact List.rel_of_pairwise_cons h.ascending hx
      -- The two first items tie, so stability makes them the same.
      have hclass := h.stable x List.mem_cons_self
      rw [List.filter_cons_of_pos (tied_eq_true_iff.2 ⟨hxy, hyx⟩),
        List.filter_cons_of_pos (tied_eq_true_iff.2 ⟨hxx, hxx⟩)] at hclass
      obtain rfl : y = x := (List.cons.inj hclass).1
      have hrest : StablySorted le rest others := by
        refine ⟨h.perm.cons_inv, h.ascending.of_cons, ?_⟩
        intro z hz
        have hz := h.stable z (.tail _ hz)
        rw [List.filter_cons, List.filter_cons] at hz
        split at hz
        · exact (List.cons.inj hz).2
        · exact hz
      rw [ih hrest (htotal.of_subset (List.subset_cons_self _ _)) hitems.of_cons]

theorem StablySorted.unique {first second : List α} (htotal : TotalOn le items)
    (hfirst : StablySorted le items first) (hsecond : StablySorted le items second) :
    first = second := by
  have hboth : StablySorted le second first := by
    refine ⟨hfirst.perm.trans hsecond.perm.symm, hfirst.ascending, ?_⟩
    intro x hx
    have hx : x ∈ items := hsecond.perm.mem_iff.1 hx
    rw [hfirst.stable x hx, hsecond.stable x hx]
  exact hboth.eq_of_ascending (htotal.of_subset hsecond.perm.subset) hsecond.ascending

/-- Items of which no two tie are the same when they tie. -/
theorem eq_of_tied {x y : α} (huntied : items.Pairwise fun x y => tied le x y = false)
    (hx : x ∈ items) (hy : y ∈ items) (htied : tied le x y = true) : x = y := by
  have hsymm : Std.Symm fun x y => tied le x y = false := by
    refine ⟨fun x y hxy => ?_⟩
    rwa [tied, Bool.and_comm]
  by_contra hne
  rw [huntied.forall hx hy hne] at htied
  cases htied

/-- If no two items tie, their order makes no difference to the sorted list. -/
theorem StablySorted.eq_of_perm {permuted other : List α} (h : StablySorted le items sorted)
    (hother : StablySorted le permuted other) (hperm : permuted.Perm items)
    (huntied : items.Pairwise fun x y => tied le x y = false) : other = sorted := by
  have hsorted : other.Perm sorted := hother.perm.trans (hperm.trans h.perm.symm)
  refine List.Perm.eq_of_pairwise ?_ hother.ascending h.ascending hsorted
  intro x y hx hy hxy hyx
  have hx : x ∈ items := hperm.subset (hother.perm.subset hx)
  have hy : y ∈ items := h.perm.subset hy
  exact eq_of_tied huntied hx hy (tied_eq_true_iff.2 ⟨hxy, hyx⟩)

/-- Items that tie keep whatever relation they had by their places. -/
theorem StablySorted.pairwise_and (h : StablySorted le items sorted) (htotal : TotalOn le items)
    {earlier : α → α → Prop} (hitems : items.Pairwise earlier) :
    sorted.Pairwise fun x y => le x y = true ∧ (le y x = true → earlier x y) := by
  rw [List.pairwise_iff_forall_sublist]
  intro x y hsublist
  have hxy : le x y = true := List.pairwise_iff_forall_sublist.1 h.ascending hsublist
  refine ⟨hxy, fun hyx => ?_⟩
  have hx : x ∈ items := h.perm.subset (hsublist.subset List.mem_cons_self)
  have hxx : tied le x x = true := tied_eq_true_iff.2 ⟨htotal.refl hx, htotal.refl hx⟩
  have hclass := hsublist.filter (tied le x)
  rw [List.filter_cons_of_pos hxx, List.filter_cons_of_pos (tied_eq_true_iff.2 ⟨hxy, hyx⟩),
    List.filter_nil, h.stable x hx] at hclass
  exact List.pairwise_iff_forall_sublist.1 hitems (hclass.trans List.filter_sublist)

/-! ### The sort of the library -/

theorem stablySorted_mergeSort (h : TotalOn le items) :
    StablySorted le items (items.mergeSort le) := by
  -- The library asks for an order on the whole type, which the items themselves are.
  let leOn : { x // x ∈ items } → { x // x ∈ items } → Bool := fun a b => le a b
  have htrans : ∀ a b c, leOn a b = true → leOn b c = true → leOn a c = true :=
    fun a b c => h.trans a a.2 b b.2 c c.2
  have htotal : ∀ a b, (leOn a b || leOn b a) = true :=
    fun a b => Bool.or_eq_true_iff.2 (h.total a a.2 b b.2)
  have hmap : (items.attach.mergeSort leOn).map Subtype.val = items.mergeSort le := by
    have hmapped : (items.attach.mergeSort leOn).map Subtype.val =
        (items.attach.map Subtype.val).mergeSort le := List.map_mergeSort fun _ _ _ _ => rfl
    rwa [List.attach_map_subtype_val] at hmapped
  refine ⟨List.mergeSort_perm .., ?_, ?_⟩
  · rw [← hmap, List.pairwise_map]
    exact List.pairwise_mergeSort htrans htotal _
  · intro x hx
    have hclass : (items.attach.filter (tied le x ∘ Subtype.val)).Pairwise (leOn · · = true) := by
      apply List.pairwise_of_forall_mem_list
      intro a ha b hb
      have ha := tied_symm (List.mem_filter.1 ha).2
      have hb := (List.mem_filter.1 hb).2
      exact (tied_eq_true_iff.1 (h.tied_trans a.2 hx b.2 ha hb)).1
    have hsublist : (items.filter (tied le x)).Sublist (items.mergeSort le) := by
      have hsorted := List.sublist_mergeSort htrans htotal hclass List.filter_sublist
      have hmapped := hsorted.map Subtype.val
      rwa [← List.filter_map, List.attach_map_subtype_val, hmap] at hmapped
    have hfiltered := hsublist.filter (tied le x)
    simp only [List.filter_filter, Bool.and_self] at hfiltered
    refine (hfiltered.eq_of_length ?_).symm
    exact ((List.mergeSort_perm items le).filter _).length_eq.symm

/-! ### Insertion -/

theorem StablySorted.filter_tied (h : StablySorted le items sorted) {x : α}
    (htotal : TotalOn le (x :: items)) :
    sorted.filter (tied le x) = items.filter (tied le x) := by
  by_cases htied : ∃ y ∈ items, tied le x y = true
  · obtain ⟨y, hy, hxy⟩ := htied
    have hsame : ∀ z ∈ items, tied le x z = tied le y z := by
      intro z hz
      have hx : x ∈ x :: items := List.mem_cons_self
      rw [Bool.eq_iff_iff]
      exact ⟨htotal.tied_trans (.tail _ hy) hx (.tail _ hz) (tied_symm hxy),
        htotal.tied_trans hx (.tail _ hy) (.tail _ hz) hxy⟩
    rw [List.filter_congr hsame, List.filter_congr fun z hz => hsame z (h.perm.mem_iff.1 hz),
      h.stable y hy]
  · have hnone : ∀ z ∈ items, ¬ tied le x z = true := fun z hz hxz => htied ⟨z, hz, hxz⟩
    rw [List.filter_eq_nil_iff.2 hnone,
      List.filter_eq_nil_iff.2 fun z hz => hnone z (h.perm.mem_iff.1 hz)]

/-- An item that goes behind all items it ties with is last in its class. -/
theorem filter_insertIdx_of_tied {x z : α} {index : Nat} (htotal : TotalOn le (x :: items))
    (hindex : index ≤ items.length) (hbehind : ∀ y ∈ items.drop index, tied le x y = false)
    (hz : z ∈ x :: items) (hzx : tied le z x = true) :
    (items.insertIdx index x).filter (tied le z) = items.filter (tied le z) ++ [x] := by
  have hnone : (items.drop index).filter (tied le z) = [] := by
    apply List.filter_eq_nil_iff.2
    intro y hy hzy
    have hmem : y ∈ x :: items := .tail _ (List.mem_of_mem_drop hy)
    have hxy := htotal.tied_trans List.mem_cons_self hz hmem (tied_symm hzx) hzy
    rw [hbehind y hy] at hxy
    cases hxy
  have hall : items.filter (tied le z) = (items.take index).filter (tied le z) := by
    rw [← List.append_nil ((items.take index).filter _), ← hnone, ← List.filter_append,
      List.take_append_drop]
  rw [insertIdx_eq_take_append_cons_drop hindex, List.filter_append,
    List.filter_cons_of_pos hzx, hnone, hall]

/-- A place for a new item: nothing that it ties with is behind the place, and in a sorted list
exactly the items in front may come before it. -/
structure Fits (le : α → α → Bool) (items : List α) (x : α) (index : Nat) : Prop where
  le_length : index ≤ items.length
  apart : ∀ y ∈ items.drop index, tied le x y = false
  parts : items.Pairwise (le · · = true) →
    (∀ y ∈ items.take index, le y x = true) ∧ ∀ y ∈ items.drop index, le y x = false

/-- A new item may go into the sorted list in place of the list itself. -/
theorem StablySorted.insertIdx {x : α} {index place : Nat} (h : StablySorted le items sorted)
    (htotal : TotalOn le (x :: items)) (hindex : index ≤ items.length)
    (hbehind : ∀ y ∈ items.drop index, tied le x y = false) (hplace : Fits le sorted x place) :
    StablySorted le (items.insertIdx index x) (sorted.insertIdx place x) := by
  obtain ⟨hfront, hback⟩ := hplace.parts h.ascending
  have hperm : (x :: sorted).Perm (x :: items) := h.perm.cons x
  refine ⟨?_, ?_, ?_⟩
  · exact (List.perm_insertIdx x sorted hplace.le_length).trans
      (hperm.trans (List.perm_insertIdx x items hindex).symm)
  · have hsplit := h.ascending
    rw [← List.take_append_drop place sorted, List.pairwise_append] at hsplit
    obtain ⟨hbefore, hafter, hcross⟩ := hsplit
    rw [insertIdx_eq_take_append_cons_drop hplace.le_length, List.pairwise_append]
    refine ⟨hbefore, List.pairwise_cons.2 ⟨?_, hafter⟩, ?_⟩
    · intro y hy
      have hy' : y ∈ x :: items := hperm.mem_iff.1 (.tail _ (List.mem_of_mem_drop hy))
      exact htotal.le_of_not_le hy' List.mem_cons_self (hback y hy)
    · intro a ha b hb
      rcases List.mem_cons.1 hb with rfl | hb
      · exact hfront a ha
      · exact hcross a ha b hb
  · intro z hz
    have hz : z ∈ x :: items := (List.perm_insertIdx x items hindex).mem_iff.1 hz
    have hsame : sorted.filter (tied le z) = items.filter (tied le z) := by
      refine h.filter_tied (htotal.of_subset ?_)
      exact List.cons_subset.2 ⟨hz, List.subset_cons_self x items⟩
    by_cases hzx : tied le z x = true
    · rw [filter_insertIdx_of_tied (htotal.of_subset hperm.subset) hplace.le_length hplace.apart
          (hperm.mem_iff.2 hz) hzx,
        filter_insertIdx_of_tied htotal hindex hbehind hz hzx, hsame]
    · have hzx := Bool.eq_false_iff.2 hzx
      rw [filter_insertIdx_of_neg hzx, filter_insertIdx_of_neg hzx, hsame]

/-- In a place that fits, a new item keeps the order of sorted items. -/
theorem Fits.pairwise_insertIdx {x : α} {index : Nat} (h : Fits le items x index)
    (htotal : TotalOn le (x :: items)) (hsorted : items.Pairwise (le · · = true)) :
    (items.insertIdx index x).Pairwise (le · · = true) := by
  have hstable : StablySorted le items items := .of_ascending hsorted
  exact (hstable.insertIdx htotal h.le_length h.apart h).ascending

end DeclEdit
