import DeclEdit.Proofs.MemberOrder

/-!
# The place of a new member

A new member is looked for a place by the rank of its category and, where names count, among the
members of its category by name. The two searches go along different ways, but both end at a place
that fits the order by which members are sorted. Only a member that lacks the name it is to be
arranged by may get another place.
-/

namespace DeclEdit

/-! ### Places under an order that goes by rank first -/

section Rank

variable {α : Type} {le : α → α → Bool} {rank : α → Nat} {items before after : List α}
  {x nearest : α} {index : Nat}
  (hrank : ∀ a ∈ x :: items, ∀ b ∈ x :: items, le a b = true → rank a ≤ rank b)
  (htotal : TotalOn le (x :: items))

include hrank

/-- Only items of the same rank tie, so only these matter in a list that is not sorted. -/
theorem fits_of_rank (hindex : index ≤ items.length)
    (hbehind : ∀ y ∈ items.drop index, rank y = rank x → le y x = false)
    (hparts : items.Pairwise (le · · = true) →
      (∀ y ∈ items.take index, le y x = true) ∧ ∀ y ∈ items.drop index, rank x ≤ rank y) :
    Fits le items x index := by
  have hx : x ∈ x :: items := List.mem_cons_self
  have hfalse : ∀ y ∈ items.drop index, rank x ≤ rank y → le y x = false := by
    intro y hy hge
    rw [Bool.eq_false_iff]
    intro hyx
    have hle := hrank y (.tail _ (List.mem_of_mem_drop hy)) x hx hyx
    rw [hbehind y hy (Nat.le_antisymm hle hge)] at hyx
    cases hyx
  refine ⟨hindex, ?_, ?_⟩
  · intro y hy
    rw [Bool.eq_false_iff]
    intro htied
    obtain ⟨hxy, hyx⟩ := tied_eq_true_iff.1 htied
    rw [hfalse y hy (hrank x hx y (.tail _ (List.mem_of_mem_drop hy)) hxy)] at hyx
    cases hyx
  · intro hsorted
    obtain ⟨hfront, hback⟩ := hparts hsorted
    exact ⟨hfront, fun y hy => hfalse y hy (hback y hy)⟩

include htotal

theorem le_of_rank_lt {y : α} (hy : y ∈ items) (hlt : rank y < rank x) : le y x = true := by
  have hx : x ∈ x :: items := List.mem_cons_self
  refine htotal.le_of_not_le hx (.tail _ hy) (Bool.eq_false_iff.2 ?_)
  intro hxy
  have hge := hrank x hx y (.tail _ hy) hxy
  omega

/-- Behind the nearest rank, if items of the same rank are not told apart. -/
theorem fits_of_isPlace (hplace : Ranking.IsPlace rank (rank x + 1) items index)
    (hsame : ∀ y ∈ items, rank y = rank x → le y x = true) : Fits le items x index := by
  refine fits_of_rank hrank hplace.le_length ?_ ?_
  · intro y hy heq
    have hlt := hplace.succ_lt_of_mem_drop hy (by omega)
    omega
  · intro hsorted
    have hranks : items.Pairwise fun a b => rank a ≤ rank b :=
      hsorted.imp_of_mem fun ha hb => hrank _ (.tail _ ha) _ (.tail _ hb)
    refine ⟨?_, fun y hy => Nat.le_of_succ_le (hplace.le_of_mem_drop hranks hy)⟩
    intro y hy
    have hmem : y ∈ items := List.mem_of_mem_take hy
    have hle := Nat.le_of_lt_succ (hplace.lt_of_mem_take hranks hy)
    rcases Nat.lt_or_eq_of_le hle with hlt | heq
    · exact le_of_rank_lt hrank htotal hmem hlt
    · exact hsame y hmem heq

/-- Behind the last item of the same rank that may come first. -/
theorem fits_behind (hitems : items = before ++ nearest :: after)
    (hnearest : rank nearest = rank x) (hle : le nearest x = true)
    (hafter : ∀ y ∈ after, rank y = rank x → le y x = false) :
    Fits le items x (before.length + 1) := by
  have hlast : nearest ∈ x :: items := by simp [hitems]
  have hdrop : items.drop (before.length + 1) = after := by
    rw [hitems, List.drop_length_add_append, List.drop_one, List.tail_cons]
  have htake : items.take (before.length + 1) = before ++ [nearest] := by
    rw [hitems, List.take_length_add_append, List.take_one, List.head?_cons, Option.toList]
  refine fits_of_rank hrank (by simp [hitems]) (hdrop ▸ hafter) ?_
  intro hsorted
  rw [hdrop, htake]
  rw [hitems, List.pairwise_append] at hsorted
  constructor
  · intro y hy
    rcases List.mem_append.1 hy with hy | hy
    · have hmem : y ∈ x :: items := by simp [hitems, hy]
      have hfirst := hsorted.2.2 y hy nearest List.mem_cons_self
      exact htotal.trans y hmem nearest hlast x List.mem_cons_self hfirst hle
    · rwa [List.mem_singleton.1 hy]
  · intro y hy
    have hmem : y ∈ x :: items := by simp [hitems, hy]
    rw [← hnearest]
    exact hrank nearest hlast y hmem (List.rel_of_pairwise_cons hsorted.2.1 hy)

/-- Before all items of the same rank, if none of them may come first. -/
theorem fits_before (hitems : items = before ++ nearest :: after)
    (hnearest : rank nearest = rank x) (hbefore : ∀ y ∈ before, rank y ≠ rank x)
    (hnone : ∀ y ∈ items, rank y = rank x → le y x = false) : Fits le items x before.length := by
  have hfirst : nearest ∈ x :: items := by simp [hitems]
  have hdrop : items.drop before.length = nearest :: after := by rw [hitems, List.drop_left]
  have htake : items.take before.length = before := by rw [hitems, List.take_left]
  refine fits_of_rank hrank (by simp [hitems]) (fun y hy => hnone y (List.mem_of_mem_drop hy)) ?_
  intro hsorted
  rw [hdrop, htake]
  rw [hitems, List.pairwise_append] at hsorted
  constructor
  · intro y hy
    have hmem : y ∈ items := by simp [hitems, hy]
    have hle := hrank y (.tail _ hmem) nearest hfirst (hsorted.2.2 y hy nearest List.mem_cons_self)
    have hne := hbefore y hy
    exact le_of_rank_lt hrank htotal hmem (by omega)
  · intro y hy
    rcases List.mem_cons.1 hy with rfl | hy'
    · exact Nat.le_of_eq hnearest.symm
    · have hmem : y ∈ x :: items := by simp [hitems, hy']
      rw [← hnearest]
      exact hrank nearest hfirst y hmem (List.rel_of_pairwise_cons hsorted.2.1 hy')

end Rank

namespace Arrangement

variable {arrangement : Arrangement} {members : List Declaration} {member a b : Declaration}
  {category : Category}

/-- Nothing asks for a name that the member does not have. -/
def NamedAsNeeded (arrangement : Arrangement) (member : Declaration) : Prop :=
  member.header.name.isSome = true ∨
    (∃ category, member.category? = some category ∧ category.isNamed = false) ∨
    arrangement.byName = false

theorem NamedAsNeeded.goesByName_eq_false (h : arrangement.NamedAsNeeded member)
    (hcategory : member.category? = some category) (hname : member.header.nameText? = none) :
    arrangement.goesByName category = false := by
  rcases h with h | ⟨found, hfound, hnamed⟩ | h
  · simp_all [Header.nameText?]
  · rw [hcategory] at hfound
    rw [goesByName, Option.some.inj hfound, hnamed, Bool.and_false]
  · rw [goesByName, h, Bool.false_and]

section Lawful

variable (h : arrangement.Lawful)
include h

theorem Lawful.rankOf_le (ha : a.category?.isSome = true) (hb : b.category?.isSome = true)
    (hle : arrangement.le a b = true) :
    arrangement.rankOf a.category? ≤ arrangement.rankOf b.category? := by
  obtain ⟨own, hown⟩ := Option.isSome_iff_exists.1 ha
  obtain ⟨other, hother⟩ := Option.isSome_iff_exists.1 hb
  rw [hown, hother]
  rcases (h.le_eq_true_iff hown hother).1 hle with hlt | ⟨rfl, -⟩
  · exact Nat.le_of_lt hlt
  · exact Nat.le_refl _

theorem Lawful.category?_eq_of_rankOf_eq (ha : a.category?.isSome = true)
    (hcategory : member.category? = some category)
    (hrank : arrangement.rankOf a.category? = arrangement.rankOf member.category?) :
    a.category? = some category := by
  obtain ⟨own, hown⟩ := Option.isSome_iff_exists.1 ha
  rw [hown, hcategory] at hrank
  rw [hown, h.ranking.rank_injective hrank]

theorem Lawful.le_eq_of_category?_eq (ha : a.category? = some category)
    (hb : b.category? = some category) : arrangement.le a b =
      (!arrangement.goesByName category ||
        arrangement.compareNames a.sortName b.sortName != .gt) := by
  rw [Bool.eq_iff_iff, h.le_eq_true_iff ha hb]
  cases arrangement.goesByName category <;>
    cases arrangement.compareNames a.sortName b.sortName <;> simp

/-- What the search by name looks for is a member of the category that may come first. -/
theorem Lawful.le_eq_of_rankOf_eq (hname : arrangement.goesByName category = true)
    (ha : a.category?.isSome = true) (hcategory : member.category? = some category)
    (hrank : arrangement.rankOf a.category? = arrangement.rankOf member.category?) :
    arrangement.le a member = (decide (a.category? = some category) &&
      arrangement.compareNames a.sortName member.sortName != .gt) := by
  have hsame := h.category?_eq_of_rankOf_eq ha hcategory hrank
  rw [h.le_eq_of_category?_eq hsame hcategory, hname, decide_eq_true hsame]
  rfl

theorem Lawful.exists_indexOfRank (members : List Declaration) (category : Category) :
    ∃ index, Ranking.indexOfRank (fun rank => (arrangement.ranking.kindAt? rank).map some)
        (members.map (·.category?)) (arrangement.ranking.rank category) = .ok index ∧
      Ranking.IsPlace (fun member => arrangement.rankOf member.category?)
        (arrangement.ranking.rank category + 1) members index := by
  have hbound := h.ranking.rank_lt category
  have hkind : ∀ r < arrangement.ranking.rank category + 1, ∃ kind : Option Category,
      (arrangement.ranking.kindAt? r).map some = some kind ∧ arrangement.rankOf kind = r := by
    intro r hr
    obtain ⟨kind, hat, hkind⟩ := h.ranking.rank_kindAt? r (by omega)
    exact ⟨some kind, by rw [hat]; rfl, hkind⟩
  have hrank : ∀ kind : Option Category,
      arrangement.rankOf kind < arrangement.ranking.rank category + 1 →
      (arrangement.ranking.kindAt? (arrangement.rankOf kind)).map some = some kind := by
    intro kind hlt
    cases kind with
    | none =>
      simp only [rankOf] at hlt
      omega
    | some kind =>
      rw [rankOf, h.ranking.kindAt?_rank kind]
      rfl
  obtain ⟨index, hindex, hplace⟩ :=
    Ranking.exists_isPlace_indexBelow hkind hrank (members.map (·.category?))
  exact ⟨index, hindex, hplace.of_map⟩

variable (hmembers : ∀ y ∈ member :: members, y.category?.isSome = true)
  (hcategory : member.category? = some category)
include hmembers hcategory

theorem Lawful.fits_by_rank {index : Nat}
    (hplace : Ranking.IsPlace (fun member => arrangement.rankOf member.category?)
      (arrangement.ranking.rank category + 1) members index)
    (hsame : ∀ y ∈ members, y.category? = some category → arrangement.le y member = true) :
    Fits arrangement.le members member index := by
  have hrank : arrangement.ranking.rank category = arrangement.rankOf member.category? := by
    rw [hcategory]
    rfl
  rw [hrank] at hplace
  refine fits_of_isPlace (fun a ha b hb => h.rankOf_le (hmembers a ha) (hmembers b hb))
    (h.totalOn_le hmembers) hplace fun y hy heq => hsame y hy ?_
  exact h.category?_eq_of_rankOf_eq (hmembers y (.tail _ hy)) hcategory heq

theorem Lawful.fits_of_nameIndex? {index : Nat} (hname : arrangement.goesByName category = true)
    (hindex : arrangement.nameIndex? members category member.sortName = some index) :
    Fits arrangement.le members member index := by
  have hrank : ∀ a ∈ member :: members, ∀ b ∈ member :: members, arrangement.le a b = true →
      arrangement.rankOf a.category? ≤ arrangement.rankOf b.category? :=
    fun a ha b hb => h.rankOf_le (hmembers a ha) (hmembers b hb)
  have htotal := h.totalOn_le hmembers
  have htest : ∀ y ∈ members,
      arrangement.rankOf y.category? = arrangement.rankOf member.category? →
      arrangement.le y member = (decide (y.category? = some category) &&
        arrangement.compareNames y.sortName member.sortName != .gt) :=
    fun y hy heq => h.le_eq_of_rankOf_eq hname (hmembers y (.tail _ hy)) hcategory heq
  unfold nameIndex? at hindex
  cases hlast : afterLast? (fun y => decide (y.category? = some category) &&
      arrangement.compareNames y.sortName member.sortName != .gt) members with
  | some found =>
    rw [hlast] at hindex
    cases hindex
    obtain ⟨before, last, after, hitems, rfl, hfound, hafter⟩ := exists_split_of_afterLast? hlast
    have hrankLast : arrangement.rankOf last.category? = arrangement.rankOf member.category? := by
      rw [Bool.and_eq_true, decide_eq_true_eq] at hfound
      rw [hfound.1, hcategory]
    refine fits_behind hrank htotal hitems hrankLast ?_ ?_
    · rw [htest last (by simp [hitems]) hrankLast]
      exact hfound
    · intro y hy heq
      rw [htest y (by simp [hitems, hy]) heq]
      exact hafter y hy
  | none =>
    rw [hlast] at hindex
    obtain ⟨before, first, after, hitems, rfl, hfound, hbefore⟩ := exists_split_of_findIdx? hindex
    rw [decide_eq_true_eq] at hfound
    refine fits_before hrank htotal hitems (by rw [hfound, hcategory]) ?_ ?_
    · intro y hy heq
      have hmem : y ∈ member :: members := by simp [hitems, hy]
      exact of_decide_eq_false (hbefore y hy)
        (h.category?_eq_of_rankOf_eq (hmembers y hmem) hcategory heq)
    · intro y hy heq
      rw [htest y hy heq]
      exact afterLast?_eq_none_iff.1 hlast y hy

end Lawful

theorem nameIndex?_eq_none {name : String}
    (hindex : arrangement.nameIndex? members category name = none) :
    ∀ y ∈ members, y.category? ≠ some category := by
  unfold nameIndex? at hindex
  rw [Option.orElse_eq_orElse, Option.orElse_eq_or, Option.or_eq_none_iff] at hindex
  simpa using hindex.2

theorem isSome_category?_of_insertIndex {index : Nat}
    (hindex : arrangement.insertIndex members member = .ok index) :
    member.category?.isSome = true := by
  cases hcategory : member.category? with
  | some category => rfl
  | none => simp [insertIndex, hcategory] at hindex

/-- **Every member has its place.** If nothing asks for a name that the member does not have, the
place fits the order by which members are sorted. -/
theorem Lawful.exists_insertIndex (h : arrangement.Lawful)
    (hmembers : ∀ y ∈ member :: members, y.category?.isSome = true)
    (hname : arrangement.NamedAsNeeded member) :
    ∃ index, arrangement.insertIndex members member = .ok index ∧
      Fits arrangement.le members member index := by
  obtain ⟨category, hcategory⟩ :=
    Option.isSome_iff_exists.1 (hmembers member List.mem_cons_self)
  obtain ⟨index, hindex, hplace⟩ := h.exists_indexOfRank members category
  have hunnamed : arrangement.goesByName category = false →
      Fits arrangement.le members member index := by
    intro hgoes
    refine h.fits_by_rank hmembers hcategory hplace ?_
    intro y _ hy
    rw [h.le_eq_of_category?_eq hy hcategory, hgoes]
    rfl
  simp only [insertIndex, hcategory, hindex]
  cases htext : member.header.nameText? with
  | none => exact ⟨index, rfl, hunnamed (hname.goesByName_eq_false hcategory htext)⟩
  | some name =>
    have hsort : member.sortName = name := by rw [Declaration.sortName, htext]; rfl
    cases hgoes : arrangement.goesByName category with
    | false => exact ⟨index, rfl, hunnamed hgoes⟩
    | true =>
      cases hfound : arrangement.nameIndex? members category name with
      | some found =>
        exact ⟨found, by simp [hfound],
          h.fits_of_nameIndex? hmembers hcategory hgoes (hsort ▸ hfound)⟩
      | none =>
        -- The category does not occur, so names do not come in.
        refine ⟨index, by simp [hfound], ?_⟩
        exact h.fits_by_rank hmembers hcategory hplace fun y hy heq =>
          absurd heq (nameIndex?_eq_none hfound y hy)

end Arrangement

end DeclEdit
