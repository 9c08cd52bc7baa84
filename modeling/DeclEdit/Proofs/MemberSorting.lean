import DeclEdit.Proofs.MemberPlace
import DeclEdit.Proofs.Shape

/-!
# Insertion and sorting of members

Sorting after an insertion and inserting into the sorted members come to the same, for both make the
stable sort of the same list. Members inserted one by one into sorted ones therefore end up like
members that are put behind the old ones and sorted with them.
-/

namespace DeclEdit.Declaration

variable {arrangement : Arrangement} {container member result : Declaration}

theorem insertMember_eq_ok_iff :
    container.insertMember arrangement member = .ok result ↔
      container.kind.ordersMembers = true ∧
        ∃ index, arrangement.insertIndex container.members member = .ok index ∧
          (∀ other ∈ container.members.insertIdx index member, container.kind.Holds other.kind) ∧
          result = { container with members := container.members.insertIdx index member } := by
  rw [insertMember, editMembers_eq_ok_iff]
  constructor
  · rintro ⟨hkind, members, hmembers, hholds, rfl⟩
    obtain ⟨index, hindex, hmembers⟩ := bind_eq_ok_iff.1 hmembers
    cases hmembers
    exact ⟨hkind, index, hindex, hholds, rfl⟩
  · rintro ⟨hkind, index, hindex, hholds, rfl⟩
    exact ⟨hkind, _, bind_eq_ok_iff.2 ⟨index, hindex, rfl⟩, hholds, rfl⟩

section Container

variable (harrangement : arrangement.Lawful) (hkind : container.kind.ordersMembers = true)
  (hshape : container.WellShaped)
include harrangement hkind hshape

/-- Sorted members are no exception: sorting leaves them as they are. -/
theorem sortMembers_eq_ok : container.sortMembers arrangement =
    .ok { container with members := container.members.mergeSort arrangement.le } := by
  unfold sortMembers
  split
  · next hsorted =>
    have hpairwise :=
      (harrangement.isSorted_eq_true_iff (hshape.isSome_category? hkind)).1 hsorted.2
    rw [List.mergeSort_of_pairwise hpairwise, eta]
  · refine editMembers_eq_ok_iff.2 ⟨hkind, _, rfl, ?_, rfl⟩
    intro member hmember
    exact hshape.members member (List.mem_mergeSort.1 hmember)

omit harrangement in
theorem isSome_category?_cons (hmember : container.kind.Holds member.kind) :
    ∀ other ∈ member :: container.members, other.category?.isSome = true := by
  intro other hother
  rcases List.mem_cons.1 hother with rfl | hother
  · exact isSome_category?_of_kind (Kind.isSome_category?_of_holds hkind hmember)
  · exact hshape.isSome_category? hkind other hother

theorem totalOn_cons_members (hmember : container.kind.Holds member.kind) :
    TotalOn arrangement.le (member :: container.members) :=
  harrangement.totalOn_le (isSome_category?_cons hkind hshape hmember)

theorem exists_insertMember (hmember : container.kind.Holds member.kind)
    (hname : arrangement.NamedAsNeeded member) :
    ∃ index, Fits arrangement.le container.members member index ∧
      (∀ other ∈ container.members.insertIdx index member, container.kind.Holds other.kind) ∧
      container.insertMember arrangement member =
        .ok { container with members := container.members.insertIdx index member } := by
  obtain ⟨index, hindex, hfits⟩ :=
    harrangement.exists_insertIndex (isSome_category?_cons hkind hshape hmember) hname
  have hholds : ∀ other ∈ container.members.insertIdx index member,
      container.kind.Holds other.kind := by
    intro other hother
    rcases (List.mem_insertIdx hfits.le_length).1 hother with rfl | hother
    · exact hmember
    · exact hshape.members other hother
  exact ⟨index, hfits, hholds, insertMember_eq_ok_iff.2 ⟨hkind, index, hindex, hholds, rfl⟩⟩

/-- Members that are inserted one by one go where a stable sort puts them. -/
theorem exists_insertMember_all {old added : List Declaration}
    (hsorted : StablySorted arrangement.le old container.members)
    (hadded : ∀ member ∈ added, arrangement.NamedAsNeeded member ∧
      container.kind.Holds member.kind) :
    ∃ members, added.foldlM (fun current member => current.insertMember arrangement member)
        container = .ok { container with members } ∧
      StablySorted arrangement.le (old ++ added) members := by
  induction added generalizing container old with
  | nil =>
    refine ⟨container.members, by rw [eta]; rfl, ?_⟩
    rwa [List.append_nil]
  | cons member rest ih =>
    obtain ⟨⟨hname, hmember⟩, hrest⟩ := List.forall_mem_cons.1 hadded
    obtain ⟨index, hfits, hholds, hinsert⟩ :=
      exists_insertMember harrangement hkind hshape hmember hname
    have htotal : TotalOn arrangement.le (member :: old) :=
      (totalOn_cons_members harrangement hkind hshape hmember).of_subset
        (hsorted.perm.cons member).symm.subset
    have hstep := hsorted.insertIdx htotal (Nat.le_refl _) (by simp) hfits
    rw [List.insertIdx_length_self] at hstep
    obtain ⟨members, hmembers, hstable⟩ := @ih
      { container with members := container.members.insertIdx index member } hkind
      (hshape.of_members hholds) _ hstep hrest
    refine ⟨members, ?_, by rwa [List.append_assoc] at hstable⟩
    rw [List.foldlM_cons, hinsert]
    exact hmembers

theorem holds_of_insertMember (hname : arrangement.NamedAsNeeded member)
    (hresult : container.insertMember arrangement member = .ok result) :
    container.kind.Holds member.kind := by
  obtain ⟨-, index, hindex, hholds, -⟩ := insertMember_eq_ok_iff.1 hresult
  have hmembers : ∀ other ∈ member :: container.members, other.category?.isSome = true :=
    List.forall_mem_cons.2
      ⟨Arrangement.isSome_category?_of_insertIndex hindex, hshape.isSome_category? hkind⟩
  obtain ⟨place, hplace, hfits⟩ := harrangement.exists_insertIndex hmembers hname
  rw [hindex] at hplace
  cases hplace
  exact hholds member ((List.mem_insertIdx hfits.le_length).2 (.inl rfl))

theorem exists_sortMembers_insertMember (hname : arrangement.NamedAsNeeded member)
    (hinserted : container.insertMember arrangement member = .ok result) :
    ∃ members, result.sortMembers arrangement = .ok { container with members } ∧
      (container.sortMembers arrangement >>= fun sorted =>
        sorted.insertMember arrangement member) = .ok { container with members } := by
  have hmember := holds_of_insertMember harrangement hkind hshape hname hinserted
  obtain ⟨index, hfits, hholds, hinsert⟩ :=
    exists_insertMember harrangement hkind hshape hmember hname
  rw [hinserted] at hinsert
  obtain rfl := Except.ok.inj hinsert
  let sorted : Declaration :=
    { container with members := container.members.mergeSort arrangement.le }
  have hsortedShape : sorted.WellShaped :=
    hshape.of_members fun other hother => hshape.members other (List.mem_mergeSort.1 hother)
  obtain ⟨place, hplace, -, hinsertSorted⟩ :=
    @exists_insertMember _ sorted _ harrangement hkind hsortedShape hmember hname
  have htotal := totalOn_cons_members harrangement hkind hshape hmember
  -- Both lists are stable sorts of the members with the new one.
  have hfirst : StablySorted arrangement.le (container.members.insertIdx index member)
      (sorted.members.insertIdx place member) :=
    (stablySorted_mergeSort (htotal.of_subset (List.subset_cons_self _ _))).insertIdx htotal
      hfits.le_length hfits.apart hplace
  have htotalInserted : TotalOn arrangement.le (container.members.insertIdx index member) :=
    htotal.of_subset (List.perm_insertIdx member _ hfits.le_length).subset
  have heq := hfirst.unique htotalInserted (stablySorted_mergeSort htotalInserted)
  refine ⟨_, sortMembers_eq_ok harrangement hkind (hshape.of_members hholds), ?_⟩
  rw [sortMembers_eq_ok harrangement hkind hshape, ← heq]
  exact hinsertSorted

theorem exists_sortMembers_append {added : List Declaration}
    (hsorted : arrangement.isSorted container.members = true)
    (hadded : ∀ member ∈ added, arrangement.NamedAsNeeded member ∧
      container.kind.Holds member.kind) :
    ∃ members, added.foldlM (fun current member => current.insertMember arrangement member)
        container = .ok { container with members } ∧
      sortMembers { container with members := container.members ++ added } arrangement =
        .ok { container with members } ∧
      StablySorted arrangement.le (container.members ++ added) members := by
  have hpairwise :=
    (harrangement.isSorted_eq_true_iff (hshape.isSome_category? hkind)).1 hsorted
  obtain ⟨members, hmembers, hstable⟩ := exists_insertMember_all harrangement hkind hshape
    (.of_ascending hpairwise) hadded
  let joined : Declaration := { container with members := container.members ++ added }
  have hjoined : joined.WellShaped := by
    apply hshape.of_members
    intro member hmember
    rcases List.mem_append.1 hmember with hmember | hmember
    · exact hshape.members member hmember
    · exact (hadded member hmember).2
  have htotal : TotalOn arrangement.le joined.members :=
    harrangement.totalOn_le (hjoined.isSome_category? hkind)
  have heq := hstable.unique htotal (stablySorted_mergeSort htotal)
  refine ⟨members, hmembers, ?_, hstable⟩
  rw [heq]
  exact @sortMembers_eq_ok _ joined harrangement hkind hjoined

end Container

/-- **Insertion and sorting commute.** In whatever order the members of a container are, sorting them
before or after a member goes in makes no difference, if the member has the name it is arranged by.
So members inserted one by one into sorted ones end up where a stable sort of all of them, the old
ones first, puts them. -/
theorem sortMembers_insertMember (harrangement : arrangement.Lawful)
    (hcontainer : container.Obtainable) (hkind : container.kind.ordersMembers = true) :
    (∀ member inserted, arrangement.NamedAsNeeded member →
      container.insertMember arrangement member = .ok inserted →
      ∃ result, inserted.sortMembers arrangement = .ok result ∧
        (container.sortMembers arrangement >>= fun sorted =>
          sorted.insertMember arrangement member) = .ok result) ∧
    (arrangement.isSorted container.members = true → ∀ added : List Declaration,
      (∀ member ∈ added, arrangement.NamedAsNeeded member ∧
        ∃ inserted, container.insertMember arrangement member = .ok inserted) →
      ∃ result, added.foldlM (fun current member => current.insertMember arrangement member)
          container = .ok result ∧
        sortMembers { container with members := container.members ++ added } arrangement =
          .ok result ∧
        StablySorted arrangement.le (container.members ++ added) result.members) := by
  have hshape := hcontainer.wellShaped
  constructor
  · intro member inserted hname hinserted
    obtain ⟨members, hsorted, hinsert⟩ :=
      exists_sortMembers_insertMember harrangement hkind hshape hname hinserted
    exact ⟨_, hsorted, hinsert⟩
  · intro hsorted added hadded
    have hholds : ∀ member ∈ added, arrangement.NamedAsNeeded member ∧
        container.kind.Holds member.kind := by
      intro member hmember
      obtain ⟨hname, inserted, hinserted⟩ := hadded member hmember
      exact ⟨hname, holds_of_insertMember harrangement hkind hshape hname hinserted⟩
    obtain ⟨members, hmembers, hjoined, hstable⟩ :=
      exists_sortMembers_append harrangement hkind hshape hsorted hholds
    exact ⟨_, hmembers, hjoined, hstable⟩

/-- Methods that are out of order, and the same methods one by one in an empty class. -/
theorem sortMembers_insertMember_by_name :
    ∃ container member inserted result filled : Declaration,
      container.members.map sortName = ["c", "a"] ∧ member.sortName = "b" ∧
      container.insertMember (.usual true) member = .ok inserted ∧
      inserted.sortMembers (.usual true) = .ok result ∧
      (container.sortMembers (.usual true) >>= fun sorted =>
        sorted.insertMember (.usual true) member) = .ok result ∧
      (container.members ++ [member]).foldlM
        (fun current member => current.insertMember (.usual true) member)
        { container with members := [] } = .ok filled ∧
      StablySorted (Arrangement.usual true).le (container.members ++ [member]) filled.members := by
  let method (name : String) : Declaration :=
    ⟨.method, ⟨[], none, none, some (.plain name)⟩, [], []⟩
  let empty : Declaration :=
    ⟨.classType, ⟨[], some ⟨"class", [], Trivia.space⟩, none, some (.plain "C")⟩, [], []⟩
  let container : Declaration := { empty with members := [method "c", method "a"] }
  let inserted : Declaration := { empty with members := [method "c", method "a", method "b"] }
  have hc : (method "c").Obtainable :=
    @Obtainable.drafted .method [.name "c"] _ (by simp [Draft.Step.parts]) rfl
  have ha : (method "a").Obtainable :=
    @Obtainable.drafted .method [.name "a"] _ (by simp [Draft.Step.parts]) rfl
  have hempty : empty.Obtainable :=
    @Obtainable.drafted .classType [.name "C"] _ (by simp [Draft.Step.parts]) rfl
  have hcontainer : container.Obtainable :=
    @Obtainable.drafted .classType [.name "C", .member (method "c"), .member (method "a")] _
      (by simp [Draft.Step.parts, hc, ha]) rfl
  have hinsert : container.insertMember (.usual true) (method "b") = .ok inserted := by
    simp only [container, inserted, empty, method]
    rfl
  have haccepted : ∀ member ∈ [method "c", method "a", method "b"],
      (Arrangement.usual true).NamedAsNeeded member ∧
        ∃ filled, empty.insertMember (.usual true) member = .ok filled := by
    intro member hmember
    simp only [List.mem_cons, List.not_mem_nil, or_false] at hmember
    rcases hmember with rfl | rfl | rfl <;> exact ⟨.inl rfl, _, rfl⟩
  obtain ⟨hone, -⟩ := sortMembers_insertMember (Arrangement.lawful_usual true) hcontainer rfl
  obtain ⟨-, hall⟩ := sortMembers_insertMember (Arrangement.lawful_usual true) hempty rfl
  obtain ⟨result, hsorted, hsame⟩ := hone (method "b") inserted (.inl rfl) hinsert
  obtain ⟨filled, hfilled, -, hstable⟩ := hall rfl [method "c", method "a", method "b"] haccepted
  exact ⟨container, method "b", inserted, result, filled, rfl, rfl, hinsert, hsorted, hsame,
    hfilled, hstable⟩

end DeclEdit.Declaration
