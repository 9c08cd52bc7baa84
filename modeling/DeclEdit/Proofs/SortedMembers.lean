import DeclEdit.Proofs.MemberSorting

/-!
# Sorted members stay sorted where nothing lacks a name

A place that fits keeps sorted members sorted, so an insertion does if nothing asks for a name that
the new member does not have. Where a name is asked for and missing, the member is compared as if
its name were empty and is put behind all members of its category. The two agree only if none of
these has a name that is greater than the empty one.
-/

namespace DeclEdit

namespace Arrangement

variable {arrangement : Arrangement} {members : List Declaration} {member a b : Declaration}
  {category : Category} {index : Nat}

theorem exists_goesByName_of_not_namedAsNeeded (h : ¬arrangement.NamedAsNeeded member)
    (hcategory : member.category? = some category) :
    member.header.nameText? = none ∧ arrangement.goesByName category = true := by
  simp only [NamedAsNeeded, not_or, not_exists, not_and, Bool.not_eq_true, Bool.not_eq_false] at h
  obtain ⟨hname, hnamed, hmode⟩ := h
  constructor
  · rw [Header.nameText?, Option.map_eq_none_iff]
    simpa using hname
  · rw [goesByName, hmode, Bool.true_and]
    simpa using hnamed category hcategory

/-- Without a name, the rank of the category alone says where a member goes. -/
theorem Lawful.isPlace_of_nameText?_eq_none (h : arrangement.Lawful)
    (hcategory : member.category? = some category) (hname : member.header.nameText? = none)
    (hindex : arrangement.insertIndex members member = .ok index) :
    Ranking.IsPlace (fun member => arrangement.rankOf member.category?)
      (arrangement.ranking.rank category + 1) members index := by
  obtain ⟨place, hplace, hisPlace⟩ := h.exists_indexOfRank members category
  simp only [insertIndex, hcategory, hplace, hname] at hindex
  cases hindex
  exact hisPlace

theorem Lawful.le_eq_true_iff_of_goesByName (h : arrangement.Lawful)
    (hgoes : arrangement.goesByName category = true) (ha : a.category? = some category)
    (hb : b.category? = some category) : arrangement.le a b = true ↔
      (arrangement.compareNames a.sortName b.sortName).isLE = true := by
  rw [h.le_eq_true_iff ha hb]
  simp [hgoes]

/-- All members of its category come before a member without a name, so all their names have to be
at most the empty one. -/
theorem Lawful.pairwise_insertIdx_iff (h : arrangement.Lawful)
    (hmembers : ∀ y ∈ member :: members, y.category?.isSome = true)
    (hcategory : member.category? = some category) (hname : member.header.nameText? = none)
    (hgoes : arrangement.goesByName category = true)
    (hindex : arrangement.insertIndex members member = .ok index)
    (hsorted : members.Pairwise (arrangement.le · · = true)) :
    (members.insertIdx index member).Pairwise (arrangement.le · · = true) ↔
      ∀ y ∈ members, y.category? = some category →
        (arrangement.compareNames y.sortName "").isLE = true := by
  have hplace := h.isPlace_of_nameText?_eq_none hcategory hname hindex
  have hempty : member.sortName = "" := by rw [Declaration.sortName, hname]; rfl
  have hle : ∀ y : Declaration, y.category? = some category → (arrangement.le y member = true ↔
      (arrangement.compareNames y.sortName "").isLE = true) := by
    intro y hy
    rw [h.le_eq_true_iff_of_goesByName hgoes hy hcategory, hempty]
  constructor
  · intro hinserted y hy hcat
    rw [insertIdx_eq_take_append_cons_drop hplace.le_length] at hinserted
    have hfront : y ∈ members.take index := by
      rw [← List.take_append_drop index members, List.mem_append] at hy
      refine hy.resolve_right ?_
      intro hbehind
      have hrank : arrangement.rankOf y.category? = arrangement.ranking.rank category := by
        rw [hcat]; rfl
      have hlt := hplace.succ_lt_of_mem_drop hbehind (by omega)
      omega
    exact (hle y hcat).1 ((List.pairwise_append.1 hinserted).2.2 y hfront member List.mem_cons_self)
  · intro hnames
    have hfits : Fits arrangement.le members member index :=
      h.fits_by_rank hmembers hcategory hplace fun y hy hcat => (hle y hcat).2 (hnames y hy hcat)
    exact hfits.pairwise_insertIdx (h.totalOn_le hmembers) hsorted

end Arrangement

namespace Declaration

variable {arrangement : Arrangement} {container member result : Declaration}

/-- **Sorted members stay sorted exactly if no name is missed.** A member goes into sorted members
without breaking their order if nothing asks for a name that it does not have. Otherwise the order
is kept where no member of its category has a name greater than the empty one, and only there. -/
theorem isSorted_insertMember_iff (harrangement : arrangement.Lawful)
    (hsorted : arrangement.isSorted container.members = true)
    (hresult : container.insertMember arrangement member = .ok result) :
    arrangement.isSorted result.members = true ↔ arrangement.NamedAsNeeded member ∨
      ∀ other ∈ container.members, other.category? = member.category? →
        (arrangement.compareNames other.sortName "").isLE = true := by
  obtain ⟨hkind, index, hindex, hholds, rfl⟩ := insertMember_eq_ok_iff.1 hresult
  have hmember := Arrangement.isSome_category?_of_insertIndex hindex
  have hinserted : ∀ other ∈ container.members.insertIdx index member,
      other.category?.isSome = true := fun other hother =>
    isSome_category?_of_kind (Kind.isSome_category?_of_holds hkind (hholds other hother))
  have hmembers : ∀ other ∈ container.members, other.category?.isSome = true := fun other hother =>
    hinserted other (List.subset_insertIdx _ index member hother)
  have hall : ∀ other ∈ member :: container.members, other.category?.isSome = true :=
    List.forall_mem_cons.2 ⟨hmember, hmembers⟩
  rw [harrangement.isSorted_eq_true_iff hmembers] at hsorted
  rw [harrangement.isSorted_eq_true_iff hinserted]
  by_cases hnamed : arrangement.NamedAsNeeded member
  · obtain ⟨place, hplace, hfits⟩ := harrangement.exists_insertIndex hall hnamed
    obtain rfl : index = place := Except.ok.inj (hindex.symm.trans hplace)
    have hascending := hfits.pairwise_insertIdx (harrangement.totalOn_le hall) hsorted
    exact iff_of_true hascending (.inl hnamed)
  · obtain ⟨category, hcategory⟩ := Option.isSome_iff_exists.1 hmember
    obtain ⟨hname, hgoes⟩ :=
      Arrangement.exists_goesByName_of_not_namedAsNeeded hnamed hcategory
    rw [harrangement.pairwise_insertIdx_iff hall hcategory hname hgoes hindex hsorted, hcategory,
      or_iff_right hnamed]

/-- A constructor without a name, where the only other constructor has none either. -/
theorem isSorted_insertMember_unnamed_constructor :
    ∃ container member result : Declaration,
      container.members.map sortName = ["b", "", "a"] ∧ member.header.name = none ∧
      (Arrangement.usual true).isSorted container.members = true ∧
      container.insertMember (.usual true) member = .ok result ∧
      (Arrangement.usual true).isSorted result.members = true := by
  let field : Declaration := ⟨.field, ⟨[], some (.plain "int"), none, some (.plain "b")⟩, [], []⟩
  let plain : Declaration := ⟨.constructor, ⟨[], none, none, none⟩, [], []⟩
  let static : Declaration := ⟨.constructor, ⟨[.spaced .staticKw], none, none, none⟩, [], []⟩
  let method : Declaration := ⟨.method, ⟨[], some (.plain "int"), none, some (.plain "a")⟩, [], []⟩
  let container : Declaration :=
    ⟨.classType, ⟨[], some (.plain "class"), none, none⟩, [field, plain, method], []⟩
  let result : Declaration := { container with members := [field, plain, static, method] }
  have hsorted : (Arrangement.usual true).isSorted container.members = true := rfl
  have hresult : container.insertMember (.usual true) static = .ok result := rfl
  have hnames : ∀ other ∈ container.members, other.category? = static.category? →
      ((Arrangement.usual true).compareNames other.sortName "").isLE = true := by decide
  exact ⟨container, static, result, rfl, rfl, hsorted, hresult,
    (isSorted_insertMember_iff (Arrangement.lawful_usual true) hsorted hresult).2 (.inr hnames)⟩

/-- A method without a name goes behind the method `a`, though the empty name is the smaller one. -/
theorem not_isSorted_insertMember_unnamed_method :
    ∃ container member result : Declaration,
      container.members.map sortName = ["a"] ∧ member.header.name = none ∧
      (Arrangement.usual true).Lawful ∧
      (Arrangement.usual true).isSorted container.members = true ∧
      container.insertMember (.usual true) member = .ok result ∧
      (Arrangement.usual true).isSorted result.members = false := by
  let named : Declaration := ⟨.method, ⟨[], some (.plain "int"), none, some (.plain "a")⟩, [], []⟩
  let unnamed : Declaration := ⟨.method, ⟨[], some (.plain "int"), none, none⟩, [], []⟩
  let container : Declaration :=
    ⟨.classType, ⟨[], some (.plain "class"), none, none⟩, [named], []⟩
  let result : Declaration := { container with members := [named, unnamed] }
  exact ⟨container, unnamed, result, rfl, rfl, Arrangement.lawful_usual true, rfl, rfl, by decide⟩

end Declaration

end DeclEdit
