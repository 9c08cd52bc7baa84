import DeclEdit.Keyword.Order
import DeclEdit.Member.Category
import DeclEdit.Proofs.InsertionIndex

/-!
# What the search for a place finds

The search goes down the ranks and, for each of them, along the list from its end. What it finds can
be told without it. Of the kinds that occur and do not rank above the new item's own, one ranks
highest, and the place is behind the last item of that kind. Sorted items do not even have to be
looked at one by one, for the place is the number of those that do not rank above the new one.
-/

namespace DeclEdit.Ranking

variable {κ : Type}

/-- The place of a new item of the kind in a list, sorted or not. -/
structure GoesAt (ranking : Ranking κ) (kind : κ) (items : List κ) (index : Nat) : Prop where
  /-- All items rank above the kind, so it goes first. -/
  front : (∀ x ∈ items, ranking.rank kind < ranking.rank x) → index = 0
  /-- Some do not, and it goes behind the last item of the highest of their kinds. -/
  behind : (∃ x ∈ items, ranking.rank x ≤ ranking.rank kind) →
    ∃ before nearest after, items = before ++ nearest :: after ∧ nearest ∉ after ∧
      index = before.length + 1 ∧ ranking.rank nearest ≤ ranking.rank kind ∧
      ∀ x ∈ items, ranking.rank x ≤ ranking.rank kind → ranking.rank x ≤ ranking.rank nearest
  le_length : index ≤ items.length
  eq_countP : ranking.isSorted items = true →
    index = items.countP fun x => decide (ranking.rank x ≤ ranking.rank kind)

variable {ranking : Ranking κ} {kind : κ} {items : List κ} {count index : Nat}

theorem IsPlace.eq_zero {rank : κ → Nat} {bound : Nat} (h : IsPlace rank bound items index)
    (hitems : ∀ x ∈ items, bound ≤ rank x) : index = 0 := by
  cases h with
  | first => rfl
  | @behind before after nearest hnearest =>
    have hbound := hitems nearest (List.mem_append_right _ List.mem_cons_self)
    omega

theorem IsPlace.exists_nearest {rank : κ → Nat} {bound : Nat} (h : IsPlace rank bound items index)
    (hitems : ∃ x ∈ items, rank x < bound) :
    ∃ before nearest after, items = before ++ nearest :: after ∧ nearest ∉ after ∧
      index = before.length + 1 ∧ rank nearest < bound ∧
      ∀ x ∈ items, rank x < bound → rank x ≤ rank nearest := by
  cases h with
  | first hall =>
    obtain ⟨x, hx, hlt⟩ := hitems
    have hbound := hall x hx
    omega
  | @behind before after nearest hnearest hbefore hafter =>
    refine ⟨before, nearest, after, rfl, ?_, rfl, hnearest, ?_⟩
    · intro hmem
      exact Nat.lt_irrefl _ (hafter nearest hmem hnearest)
    · intro x hx hlt
      rcases List.mem_append.1 hx with hx | hx
      · exact hbefore x hx hlt
      rcases List.mem_cons.1 hx with rfl | hx
      · exact Nat.le_refl _
      · exact Nat.le_of_lt (hafter x hx hlt)

theorem IsPlace.goesAt (h : IsPlace ranking.rank (ranking.rank kind + 1) items index) :
    ranking.GoesAt kind items index := by
  constructor
  · exact h.eq_zero
  · intro hitems
    obtain ⟨x, hx, hle⟩ := hitems
    obtain ⟨before, nearest, after, hsplit, hlast, hindex, hnearest, hhighest⟩ :=
      h.exists_nearest ⟨x, hx, Nat.lt_succ_of_le hle⟩
    refine ⟨before, nearest, after, hsplit, hlast, hindex, Nat.le_of_lt_succ hnearest, ?_⟩
    intro y hy hle
    exact hhighest y hy (Nat.lt_succ_of_le hle)
  · exact h.le_length
  · intro hsorted
    have hcount := h.eq_countP (isSorted_eq_true_iff.1 hsorted)
    simpa only [Nat.lt_succ_iff] using hcount

variable [DecidableEq κ]

/-- A search that admits items without a kind ends at the same place where there are none. -/
theorem indexBelow_map_some (kindAt? : Nat → Option κ) (items : List κ) (bound : Nat) :
    indexBelow (fun rank => (kindAt? rank).map some) (items.map some) bound =
      indexBelow kindAt? items bound := by
  induction bound with
  | zero => rfl
  | succ bound ih =>
    rw [indexBelow, indexBelow, ih]
    cases kindAt? bound with
    | none => rfl
    | some kind =>
      simp only [Option.map_some, afterLast?_map, Option.some.injEq]

theorem Lawful.exists_goesAt (h : ranking.Lawful count) (kind : κ) (items : List κ) :
    ∃ index, ranking.insertIndex items kind = .ok index ∧ ranking.GoesAt kind items index := by
  obtain ⟨index, hindex, hplace⟩ := h.exists_insertIndex items kind
  exact ⟨index, hindex, hplace.goesAt⟩

/-- **The place of a modifier and the place of a member.** Under a lawful order of the keywords, a
keyword goes behind the last of the nearest kind, in any list of keywords. Under a lawful order of
the categories, a member does, and it makes no difference that the search among members also allows
for declarations without a category. -/
theorem exists_goesAt_keyword_category :
    (∀ order : Ranking Keyword, order.Lawful Keyword.all.length → ∀ keyword keywords,
      ∃ index, order.insertIndex keywords keyword = .ok index ∧
        order.GoesAt keyword keywords index) ∧
    ∀ ranking : Ranking Category, ranking.Lawful Category.all.length → ∀ category categories,
      ∃ index, ranking.insertIndex categories category = .ok index ∧
        indexOfRank (fun rank => (ranking.kindAt? rank).map some) (categories.map some)
          (ranking.rank category) = .ok index ∧
        ranking.GoesAt category categories index := by
  constructor
  · intro order horder keyword keywords
    exact horder.exists_goesAt keyword keywords
  · intro ranking hranking category categories
    obtain ⟨index, hindex, hplace⟩ := hranking.exists_goesAt category categories
    refine ⟨index, hindex, ?_, hplace⟩
    rw [indexOfRank, indexBelow_map_some]
    exact hindex

/-- Keywords that are out of order and repeat themselves, and members that do. -/
theorem exists_goesAt_unsorted :
    ∃ (order : Ranking Keyword) (ranking : Ranking Category),
      order.Lawful Keyword.all.length ∧ ranking.Lawful Category.all.length ∧
      order.insertIndex [.staticKw, .publicKw, .staticKw, .publicKw, .constKw] .internalKw =
        .ok 4 ∧
      order.GoesAt .internalKw [.staticKw, .publicKw, .staticKw, .publicKw, .constKw] 4 ∧
      indexOfRank (fun rank => (ranking.kindAt? rank).map some)
        ([.method, .field, .classType].map some) (ranking.rank .event) = .ok 2 ∧
      ranking.GoesAt .event [.method, .field, .classType] 2 := by
  have hranking : (ofList Category.all).Lawful Category.all.length :=
    lawful_ofList (by decide) Category.mem_all
  obtain ⟨hkeywords, hcategories⟩ := exists_goesAt_keyword_category
  obtain ⟨index, hindex, hplace⟩ := hkeywords Keyword.defaultOrder Keyword.lawful_defaultOrder
    .internalKw [.staticKw, .publicKw, .staticKw, .publicKw, .constKw]
  obtain ⟨place, -, hsearch, hmember⟩ := hcategories (ofList Category.all) hranking
    .event [.method, .field, .classType]
  obtain rfl : 4 = index := Except.ok.inj hindex
  obtain rfl : 2 = place := Except.ok.inj hsearch
  exact ⟨Keyword.defaultOrder, ofList Category.all, Keyword.lawful_defaultOrder, hranking, hindex,
    hplace, hsearch, hmember⟩

end DeclEdit.Ranking
