import DeclEdit.Ranking
import Mathlib.Data.List.InsertIdx

/-!
# The place of a new item

A new item goes behind the nearest one: the last of those with the greatest rank below a bound,
which is one more than the new item's own rank. `IsPlace` says so without the search, which runs
down the ranks and not along the list. What the edits need follows from it. In any list, no item
behind the place has the new item's rank. In a sorted list, the place parts the ranks below the
bound from the others.
-/

namespace DeclEdit

variable {α β : Type}

theorem insertIdx_eq_take_append_cons_drop {items : List α} {index : Nat}
    (hindex : index ≤ items.length) (x : α) :
    items.insertIdx index x = items.take index ++ x :: items.drop index := by
  induction items generalizing index with
  | nil =>
    obtain rfl : index = 0 := by simpa using hindex
    rfl
  | cons y rest ih =>
    cases index with
    | zero => rfl
    | succ index => simp [ih (Nat.le_of_succ_le_succ hindex)]

/-- An item that fails the test may stand anywhere or nowhere. -/
theorem filter_append_cons_of_neg {test : α → Bool} {x : α} (hx : test x = false)
    (front back : List α) : (front ++ x :: back).filter test = (front ++ back).filter test := by
  have hneg : ¬test x = true := by simp [hx]
  rw [List.filter_append, List.filter_cons_of_neg hneg, ← List.filter_append]

theorem filter_insertIdx_of_neg {test : α → Bool} {x : α} (hx : test x = false) (items : List α)
    (index : Nat) : (items.insertIdx index x).filter test = items.filter test := by
  by_cases hindex : index ≤ items.length
  · rw [insertIdx_eq_take_append_cons_drop hindex, filter_append_cons_of_neg hx,
      List.take_append_drop]
  · rw [List.insertIdx_of_length_lt (Nat.lt_of_not_le hindex)]

theorem exists_split_of_afterLast? {test : α → Bool} {items : List α} {index : Nat}
    (h : afterLast? test items = some index) :
    ∃ before last after, items = before ++ last :: after ∧ index = before.length + 1 ∧
      test last = true ∧ ∀ x ∈ after, test x = false := by
  induction items generalizing index with
  | nil => simp [afterLast?] at h
  | cons x rest ih =>
    simp only [afterLast?] at h
    split at h
    · next found hfound =>
      obtain ⟨before, last, after, hrest, hindex, hlast, hafter⟩ := ih hfound
      refine ⟨x :: before, last, after, by rw [hrest]; rfl, ?_, hlast, hafter⟩
      rw [← Option.some.inj h, hindex]
      rfl
    · next hnone =>
      split at h
      · next htest =>
        exact ⟨[], x, rest, rfl, (Option.some.inj h).symm, htest, afterLast?_eq_none_iff.1 hnone⟩
      · cases h

theorem exists_split_of_findIdx? {test : α → Bool} {items : List α} {index : Nat}
    (h : items.findIdx? test = some index) :
    ∃ before first after, items = before ++ first :: after ∧ index = before.length ∧
      test first = true ∧ ∀ x ∈ before, test x = false := by
  obtain ⟨hlt, hfound, hbefore⟩ := List.findIdx?_eq_some_iff_getElem.1 h
  refine ⟨items.take index, items[index], items.drop (index + 1), ?_, ?_, hfound, ?_⟩
  · rw [List.getElem_cons_drop, List.take_append_drop]
  · rw [List.length_take, Nat.min_eq_left (Nat.le_of_lt hlt)]
  · intro x hx
    obtain ⟨position, hposition, rfl⟩ := List.mem_take_iff_getElem.1 hx
    exact Bool.eq_false_iff.2 (hbefore position (by omega))

namespace Ranking

/-- The place for an item whose rank is just below the bound: at the front if no item has a rank
below the bound, else behind the nearest item. -/
inductive IsPlace (rank : α → Nat) (bound : Nat) : List α → Nat → Prop
  | first {items : List α} (hitems : ∀ x ∈ items, bound ≤ rank x) : IsPlace rank bound items 0
  | behind {before after : List α} {nearest : α} (hnearest : rank nearest < bound)
      (hbefore : ∀ x ∈ before, rank x < bound → rank x ≤ rank nearest)
      (hafter : ∀ x ∈ after, rank x < bound → rank x < rank nearest) :
      IsPlace rank bound (before ++ nearest :: after) (before.length + 1)

namespace IsPlace

variable {rank : α → Nat} {bound index : Nat} {items : List α}

theorem le_length (h : IsPlace rank bound items index) : index ≤ items.length := by
  cases h with
  | first => exact Nat.zero_le _
  | behind =>
    simp only [List.length_append, List.length_cons]
    omega

/-- Behind the place no item has the rank just below the bound. -/
theorem succ_lt_of_mem_drop (h : IsPlace rank bound items index) {x : α}
    (hx : x ∈ items.drop index) (hrank : rank x < bound) : rank x + 1 < bound := by
  cases h with
  | first hitems => exact absurd hrank (Nat.not_lt.2 (hitems x hx))
  | @behind before after nearest hnearest _ hafter =>
    have hx' : x ∈ after := by simpa [List.drop_length_add_append] using hx
    have hlt := hafter x hx' hrank
    omega

theorem of_map {rank : β → Nat} {key : α → β} (h : IsPlace rank bound (items.map key) index) :
    IsPlace (fun x => rank (key x)) bound items index := by
  generalize hkeys : items.map key = keys at h
  cases h with
  | first hitems =>
    subst hkeys
    exact .first fun x hx => hitems _ (List.mem_map_of_mem hx)
  | @behind before after nearest hnearest hbefore hafter =>
    obtain ⟨front, back, rfl, hfront, hback⟩ := List.map_eq_append_iff.1 hkeys
    obtain ⟨last, rest, rfl, rfl, rfl⟩ := List.map_eq_cons_iff.1 hback
    subst hfront
    rw [List.length_map]
    exact .behind hnearest (fun x hx => hbefore _ (List.mem_map_of_mem hx))
      fun x hx => hafter _ (List.mem_map_of_mem hx)

theorem succ (h : IsPlace rank bound items index) (hitems : ∀ x ∈ items, rank x ≠ bound) :
    IsPlace rank (bound + 1) items index := by
  cases h with
  | first hall =>
    refine .first ?_
    intro x hx
    have hne := hitems x hx
    have hle := hall x hx
    omega
  | behind hnearest hbefore hafter =>
    simp only [List.mem_append, List.mem_cons] at hitems
    refine .behind (by omega) (fun x hx hrank => hbefore x hx ?_) fun x hx hrank => hafter x hx ?_
    · have hne := hitems x (.inl hx)
      omega
    · have hne := hitems x (.inr (.inr hx))
      omega

/-! ### In a sorted list -/

section Sorted

variable (hsorted : items.Pairwise fun a b => rank a ≤ rank b)
include hsorted

theorem lt_of_mem_take (h : IsPlace rank bound items index) {x : α} (hx : x ∈ items.take index) :
    rank x < bound := by
  cases h with
  | first => simp at hx
  | @behind before after nearest hnearest _ _ =>
    rw [List.pairwise_append] at hsorted
    have hx' : x ∈ before ∨ x = nearest := by simpa [List.take_length_add_append] using hx
    rcases hx' with hx' | rfl
    · exact Nat.lt_of_le_of_lt (hsorted.2.2 x hx' nearest List.mem_cons_self) hnearest
    · exact hnearest

theorem le_of_mem_drop (h : IsPlace rank bound items index) {x : α} (hx : x ∈ items.drop index) :
    bound ≤ rank x := by
  cases h with
  | first hitems => exact hitems x hx
  | @behind before after nearest _ _ hafter =>
    have hx' : x ∈ after := by simpa [List.drop_length_add_append] using hx
    have hle := List.rel_of_pairwise_cons (List.pairwise_append.1 hsorted).2.1 hx'
    by_contra hlt
    exact absurd (hafter x hx' (Nat.lt_of_not_le hlt)) (Nat.not_lt.2 hle)

theorem eq_countP (h : IsPlace rank bound items index) :
    index = items.countP fun x => decide (rank x < bound) := by
  have htake : (items.take index).countP (fun x => decide (rank x < bound)) = index := by
    rw [List.countP_eq_length.2 fun x hx => decide_eq_true (lt_of_mem_take hsorted h hx),
      List.length_take, Nat.min_eq_left h.le_length]
  have hdrop : (items.drop index).countP (fun x => decide (rank x < bound)) = 0 := by
    apply List.countP_eq_zero.2
    intro x hx
    simpa using le_of_mem_drop hsorted h hx
  calc
    index = (items.take index).countP _ + (items.drop index).countP _ := by rw [htake, hdrop]; rfl
    _ = items.countP _ := by rw [← List.countP_append, List.take_append_drop]

end Sorted

end IsPlace

/-! ### The search -/

variable {κ : Type} [DecidableEq κ]

/-- The search below a bound finds the place if the kinds and the ranks below the bound are inverse
to each other. Kinds with other ranks may have any place in the table. -/
theorem exists_isPlace_indexBelow {kindAt? : Nat → Option κ} {rank : κ → Nat} {bound : Nat}
    (hkind : ∀ r < bound, ∃ kind, kindAt? r = some kind ∧ rank kind = r)
    (hrank : ∀ kind, rank kind < bound → kindAt? (rank kind) = some kind) (items : List κ) :
    ∃ index, indexBelow kindAt? items bound = .ok index ∧ IsPlace rank bound items index := by
  induction bound with
  | zero => exact ⟨0, rfl, .first fun _ _ => Nat.zero_le _⟩
  | succ bound ih =>
    obtain ⟨kind, hat, rfl⟩ := hkind bound (Nat.lt_succ_self bound)
    have hunique : ∀ x, rank x = rank kind → x = kind := by
      intro x hx
      have hxat := hrank x (by omega)
      rw [hx, hat] at hxat
      exact (Option.some.inj hxat).symm
    simp only [indexBelow, hat]
    cases hlast : afterLast? (fun x => decide (x = kind)) items with
    | some index =>
      refine ⟨index, rfl, ?_⟩
      obtain ⟨before, last, after, rfl, rfl, hlast, hafter⟩ := exists_split_of_afterLast? hlast
      obtain rfl : last = kind := by simpa using hlast
      refine .behind (Nat.lt_succ_self _) (fun x _ hx => Nat.le_of_lt_succ hx) ?_
      intro x hx hlt
      have hne : x ≠ last := by simpa using hafter x hx
      exact Nat.lt_of_le_of_ne (Nat.le_of_lt_succ hlt) fun heq => hne (hunique x heq)
    | none =>
      -- The kind does not occur, so the search goes on below it.
      have habsent : ∀ x ∈ items, x ≠ kind := by simpa using afterLast?_eq_none_iff.1 hlast
      obtain ⟨index, hindex, hplace⟩ := ih (fun r hr => hkind r (by omega))
        fun x hx => hrank x (by omega)
      exact ⟨index, hindex, hplace.succ fun x hx heq => habsent x hx (hunique x heq)⟩

variable {ranking : Ranking κ} {count : Nat}

theorem Lawful.exists_insertIndex (h : ranking.Lawful count) (items : List κ) (kind : κ) :
    ∃ index, ranking.insertIndex items kind = .ok index ∧
      IsPlace ranking.rank (ranking.rank kind + 1) items index :=
  exists_isPlace_indexBelow
    (fun r hr => h.rank_kindAt? r (by have := h.rank_lt kind; omega))
    (fun x _ => h.kindAt?_rank x) items

theorem Lawful.isPlace_insertIndex (h : ranking.Lawful count) {items : List κ} {kind : κ}
    {index : Nat} (hindex : ranking.insertIndex items kind = .ok index) :
    IsPlace ranking.rank (ranking.rank kind + 1) items index := by
  obtain ⟨found, hfound, hplace⟩ := h.exists_insertIndex items kind
  rw [hfound] at hindex
  cases hindex
  exact hplace

/-! ### Sorted items -/

omit [DecidableEq κ] in
theorem isSorted_eq_true_iff {items : List κ} :
    ranking.isSorted items = true ↔ items.Pairwise fun a b => ranking.rank a ≤ ranking.rank b := by
  have hle : ∀ a b, decide (ranking.rank a ≤ ranking.rank b) = true ↔
      ranking.rank a ≤ ranking.rank b := fun _ _ => decide_eq_true_iff
  rw [isSorted, ascending_eq_true_iff_pairwise]
  · simp only [hle]
  · intro a _ b _ c _ hab hbc
    rw [hle] at hab hbc ⊢
    exact Nat.le_trans hab hbc

omit [DecidableEq κ] in
theorem Lawful.rank_injective (h : ranking.Lawful count) {a b : κ}
    (hrank : ranking.rank a = ranking.rank b) : a = b := by
  have ha := h.kindAt?_rank a
  rw [hrank, h.kindAt?_rank b] at ha
  exact (Option.some.inj ha).symm

omit [DecidableEq κ] in
/-- Which items there are determines a sorted list of them. -/
theorem Lawful.eq_of_perm (h : ranking.Lawful count) {first second : List κ}
    (hfirst : ranking.isSorted first = true) (hsecond : ranking.isSorted second = true)
    (hperm : first.Perm second) : first = second := by
  refine List.Perm.eq_of_pairwise ?_ (isSorted_eq_true_iff.1 hfirst)
    (isSorted_eq_true_iff.1 hsecond) hperm
  intro a b _ _ hab hba
  exact h.rank_injective (Nat.le_antisymm hab hba)

omit [DecidableEq κ] in
theorem isSorted_of_sublist {items kept : List κ} (hkept : kept.Sublist items)
    (hsorted : ranking.isSorted items = true) : ranking.isSorted kept = true :=
  isSorted_eq_true_iff.2 ((isSorted_eq_true_iff.1 hsorted).sublist hkept)

omit [DecidableEq κ] in
theorem isSorted_append_cons {front back : List κ} {kind : κ}
    (hsorted : ranking.isSorted (front ++ back) = true)
    (hfront : ∀ x ∈ front, ranking.rank x < ranking.rank kind + 1)
    (hback : ∀ x ∈ back, ranking.rank kind + 1 ≤ ranking.rank x) :
    ranking.isSorted (front ++ kind :: back) = true := by
  rw [isSorted_eq_true_iff, List.pairwise_append] at hsorted ⊢
  obtain ⟨hfrontSorted, hbackSorted, hcross⟩ := hsorted
  refine ⟨hfrontSorted, List.pairwise_cons.2 ⟨?_, hbackSorted⟩, ?_⟩
  · intro x hx
    exact Nat.le_of_succ_le (hback x hx)
  · intro x hx y hy
    rcases List.mem_cons.1 hy with rfl | hy
    · exact Nat.le_of_lt_succ (hfront x hx)
    · exact hcross x hx y hy

section Place

variable {items : List κ} {kind : κ} {index first : Nat}

theorem Lawful.isSorted_insertIdx (h : ranking.Lawful count)
    (hindex : ranking.insertIndex items kind = .ok index)
    (hsorted : ranking.isSorted items = true) :
    ranking.isSorted (items.insertIdx index kind) = true := by
  have hplace := h.isPlace_insertIndex hindex
  have hpairwise := isSorted_eq_true_iff.1 hsorted
  rw [insertIdx_eq_take_append_cons_drop hplace.le_length]
  refine isSorted_append_cons ?_ (fun x hx => hplace.lt_of_mem_take hpairwise hx)
    fun x hx => hplace.le_of_mem_drop hpairwise hx
  rwa [List.take_append_drop]

/-- A place right before or right behind an item parts the ranks of the others. -/
theorem Lawful.parts_of_insertIndex (h : ranking.Lawful count)
    (hindex : ranking.insertIndex items kind = .ok index)
    (hplace : index = first ∨ index = first + 1) (hsorted : ranking.isSorted items = true) :
    (∀ x ∈ items.take first, ranking.rank x < ranking.rank kind + 1) ∧
      ∀ x ∈ items.drop (first + 1), ranking.rank kind + 1 ≤ ranking.rank x := by
  have hplaced := h.isPlace_insertIndex hindex
  have hpairwise := isSorted_eq_true_iff.1 hsorted
  refine ⟨fun x hx => hplaced.lt_of_mem_take hpairwise ?_,
    fun x hx => hplaced.le_of_mem_drop hpairwise ?_⟩
  · exact List.take_subset_take_left items (by omega) hx
  · exact List.drop_subset_drop_left items (by omega) hx

theorem Lawful.isSorted_set (h : ranking.Lawful count)
    (hindex : ranking.insertIndex items kind = .ok index)
    (hplace : index = first ∨ index = first + 1) (hfirst : first < items.length)
    (hsorted : ranking.isSorted items = true) : ranking.isSorted (items.set first kind) = true := by
  obtain ⟨hfront, hback⟩ := h.parts_of_insertIndex hindex hplace hsorted
  rw [List.set_eq_take_append_cons_drop, if_pos hfirst]
  refine isSorted_append_cons (isSorted_of_sublist ?_ hsorted) hfront hback
  rw [← List.eraseIdx_eq_take_drop_succ]
  exact List.eraseIdx_sublist items first

/-- Without the item that gives way, the new one belongs where that one stood. -/
theorem Lawful.insertIndex_eraseIdx (h : ranking.Lawful count)
    (hindex : ranking.insertIndex items kind = .ok index)
    (hplace : index = first ∨ index = first + 1) (hfirst : first < items.length)
    (hsorted : ranking.isSorted items = true) :
    ranking.insertIndex (items.eraseIdx first) kind = .ok first := by
  obtain ⟨hfront, hback⟩ := h.parts_of_insertIndex hindex hplace hsorted
  obtain ⟨found, hfound, hplaced⟩ := h.exists_insertIndex (items.eraseIdx first) kind
  have hkept := isSorted_of_sublist (List.eraseIdx_sublist items first) hsorted
  have hcount := hplaced.eq_countP (isSorted_eq_true_iff.1 hkept)
  rw [List.eraseIdx_eq_take_drop_succ, List.countP_append,
    List.countP_eq_length.2 fun x hx => decide_eq_true (hfront x hx),
    List.countP_eq_zero.2 fun x hx => by simpa using hback x hx, List.length_take,
    Nat.min_eq_left (Nat.le_of_lt hfirst)] at hcount
  rw [hfound, hcount]
  rfl

end Place

end Ranking

end DeclEdit
