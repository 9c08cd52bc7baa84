import DeclEdit.Proofs.MemberSorting

/-!
# Sorting arranges the members

The comparison of members orders everything that a container with ordered members can hold: what it
leaves equal for want of a category cannot get in. So the sorted members are in order two by two and
not only next to each other, members that compare equal stay in their order, and a second sort finds
nothing to do. Where no two members compare equal, there is one arrangement whatever the order they
come in.
-/

namespace DeclEdit

namespace Arrangement

variable {arrangement : Arrangement} {a b : Declaration} {own other : Category}

/-- The first member may stand before the second one: the rank of the category decides, and within
a category that has names the name does, if names count. -/
def Precedes (arrangement : Arrangement) (a b : Declaration) : Prop :=
  ∃ own other, a.category? = some own ∧ b.category? = some other ∧
    (arrangement.ranking.rank own < arrangement.ranking.rank other ∨
      own = other ∧ (arrangement.byName = true → own.isNamed = true →
        arrangement.compareNames a.sortName b.sortName ≠ .gt))

/-- The second list is the first one in order. -/
structure ArrangedFrom (arrangement : Arrangement) (members arranged : List Declaration) : Prop where
  perm : arranged.Perm members
  /-- Any two members are in order, wherever they stand. -/
  precedes : arranged.Pairwise arrangement.Precedes
  /-- Members that compare equal keep their order. -/
  stable : ∀ member ∈ members,
    arranged.filter (fun other => arrangement.compare member other = .eq) =
      members.filter (fun other => arrangement.compare member other = .eq)

section Lawful

variable (h : arrangement.Lawful)
include h

theorem Lawful.le_eq_true_iff_precedes (ha : a.category?.isSome = true)
    (hb : b.category?.isSome = true) : arrangement.le a b = true ↔ arrangement.Precedes a b := by
  obtain ⟨own, hown⟩ := Option.isSome_iff_exists.1 ha
  obtain ⟨other, hother⟩ := Option.isSome_iff_exists.1 hb
  rw [h.le_eq_true_iff hown hother]
  simp only [Precedes, hown, hother, Option.some.injEq, goesByName, Bool.and_eq_true, and_imp,
    Ordering.isLE_iff_ne_gt]
  constructor
  · intro hle
    exact ⟨own, other, rfl, rfl, hle⟩
  · rintro ⟨_, _, rfl, rfl, hle⟩
    exact hle

theorem Lawful.tied_le (ha : a.category?.isSome = true) (hb : b.category?.isSome = true) :
    tied arrangement.le a b = decide (arrangement.compare a b = .eq) := by
  obtain ⟨own, hown⟩ := Option.isSome_iff_exists.1 ha
  obtain ⟨other, hother⟩ := Option.isSome_iff_exists.1 hb
  have hkeys := h.transCmp_compareKeys
  have hswap : arrangement.compareKeys b a = (arrangement.compareKeys a b).swap :=
    Std.OrientedCmp.eq_swap
  rw [tied, le_eq_isLE, le_eq_isLE, h.compare_eq_compareKeys hown hother,
    h.compare_eq_compareKeys hother hown, hswap]
  cases arrangement.compareKeys a b <;> rfl

theorem Lawful.arrangedFrom {members arranged : List Declaration}
    (hmembers : ∀ member ∈ members, member.category?.isSome = true)
    (harranged : StablySorted arrangement.le members arranged) :
    arrangement.ArrangedFrom members arranged := by
  have hsame : ∀ member ∈ arranged, member.category?.isSome = true :=
    fun member hmember => hmembers member (harranged.perm.subset hmember)
  refine ⟨harranged.perm, ?_, ?_⟩
  · refine harranged.ascending.imp_of_mem ?_
    intro a b ha hb hle
    exact (h.le_eq_true_iff_precedes (hsame a ha) (hsame b hb)).1 hle
  · intro member hmember
    have htied : ∀ other : Declaration, other.category?.isSome = true →
        decide (arrangement.compare member other = .eq) = tied arrangement.le member other :=
      fun other hother => (h.tied_le (hmembers member hmember) hother).symm
    rw [List.filter_congr fun other hother => htied other (hsame other hother),
      List.filter_congr fun other hother => htied other (hmembers other hother),
      harranged.stable member hmember]

theorem Lawful.pairwise_not_tied {members : List Declaration}
    (hmembers : ∀ member ∈ members, member.category?.isSome = true)
    (hdistinct : members.Pairwise fun a b => arrangement.compare a b ≠ .eq) :
    members.Pairwise fun a b => tied arrangement.le a b = false := by
  refine hdistinct.imp_of_mem ?_
  intro a b ha hb hne
  rw [h.tied_le (hmembers a ha) (hmembers b hb)]
  exact decide_eq_false hne

end Lawful

end Arrangement

namespace Declaration

variable {arrangement : Arrangement} {container : Declaration}

/-- **Sorting arranges the members.** Nothing but the member list changes, which becomes the stable
sort of the old one. It is sorted then, and sorting it again changes nothing. If no two members
compare equal, a container with the same members in another order becomes the same declaration. -/
theorem exists_sortMembers (harrangement : arrangement.Lawful) (hcontainer : container.Obtainable)
    (hkind : container.kind.ordersMembers = true) :
    ∃ members, container.sortMembers arrangement = .ok { container with members } ∧
      arrangement.ArrangedFrom container.members members ∧
      arrangement.isSorted members = true ∧
      sortMembers { container with members } arrangement = .ok { container with members } ∧
      (container.members.Pairwise (fun a b => arrangement.compare a b ≠ .eq) →
        ∀ permuted : List Declaration, permuted.Perm container.members →
          sortMembers { container with members := permuted } arrangement =
            .ok { container with members }) := by
  have hshape := hcontainer.wellShaped
  have hmembers := hshape.isSome_category? hkind
  have hstable : StablySorted arrangement.le container.members
      (container.members.mergeSort arrangement.le) :=
    stablySorted_mergeSort (harrangement.totalOn_le hmembers)
  have hsorted : arrangement.isSorted (container.members.mergeSort arrangement.le) = true := by
    rw [harrangement.isSorted_eq_true_iff]
    · exact hstable.ascending
    · exact fun member hmember => hmembers member (hstable.perm.subset hmember)
  refine ⟨_, sortMembers_eq_ok harrangement hkind hshape,
    harrangement.arrangedFrom hmembers hstable, hsorted, if_pos ⟨hkind, hsorted⟩, ?_⟩
  intro hdistinct permuted hperm
  let other : Declaration := { container with members := permuted }
  have hother : other.WellShaped :=
    hshape.of_members fun member hmember => hshape.members member (hperm.subset hmember)
  have hstableOther : StablySorted arrangement.le permuted (permuted.mergeSort arrangement.le) :=
    stablySorted_mergeSort (harrangement.totalOn_le (hother.isSome_category? hkind))
  rw [← hstable.eq_of_perm hstableOther hperm (harrangement.pairwise_not_tied hmembers hdistinct)]
  exact @sortMembers_eq_ok _ other harrangement hkind hother

/-- Two methods the wrong way round, with an indexer and a field between them. -/
theorem exists_sortMembers_by_name :
    ∃ container result : Declaration, container.Obtainable ∧
      container.members.map sortName = ["b", "", "x", "a"] ∧
      result.members.map sortName = ["x", "", "a", "b"] ∧
      container.sortMembers (.usual true) = .ok result ∧
      (Arrangement.usual true).ArrangedFrom container.members result.members ∧
      sortMembers { container with members := container.members.reverse } (.usual true) =
        .ok result := by
  let method (name : String) : Declaration :=
    ⟨.method, ⟨[], none, none, some (.plain name)⟩, [], []⟩
  let indexer : Declaration := ⟨.indexer, ⟨[], none, none, none⟩, [], []⟩
  let field : Declaration := ⟨.field, ⟨[], none, none, some (.plain "x")⟩, [], []⟩
  let container : Declaration :=
    ⟨.classType, ⟨[], some (.plain "class"), none, none⟩, [method "b", indexer, field, method "a"], []⟩
  let result : Declaration := { container with members := [field, indexer, method "a", method "b"] }
  have ha : (method "a").Obtainable :=
    @Obtainable.drafted .method [.name "a"] _ (by simp [Draft.Step.parts]) rfl
  have hb : (method "b").Obtainable :=
    @Obtainable.drafted .method [.name "b"] _ (by simp [Draft.Step.parts]) rfl
  have hindexer : indexer.Obtainable :=
    @Obtainable.drafted .indexer [] _ (by simp) rfl
  have hfield : field.Obtainable :=
    @Obtainable.drafted .field [.name "x"] _ (by simp [Draft.Step.parts]) rfl
  have hcontainer : container.Obtainable :=
    @Obtainable.drafted .classType [.members container.members] _
      (by simp [Draft.Step.parts, container, ha, hb, hindexer, hfield]) rfl
  obtain ⟨members, hsorted, harranged, -, -, hdistinct⟩ :=
    exists_sortMembers (Arrangement.lawful_usual true) hcontainer rfl
  have hpermuted := hdistinct (by decide)
  -- The members in order are one of their permutations, and sorting leaves them as they are.
  have hself : result.sortMembers (.usual true) = .ok result := if_pos ⟨rfl, by decide⟩
  have hresult := Except.ok.inj (hself.symm.trans (hpermuted result.members (by decide)))
  obtain rfl : result.members = members := congrArg Declaration.members hresult
  exact ⟨container, result, hcontainer, rfl, rfl, hsorted, harranged,
    hpermuted _ (List.reverse_perm _)⟩

end Declaration

end DeclEdit
