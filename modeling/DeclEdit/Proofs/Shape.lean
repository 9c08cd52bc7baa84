import DeclEdit.Proofs.HeaderMoves

/-!
# What can be obtained is well shaped

A draft is checked when it is finished, and every edit that replaces a list checks what it puts into
the new one. The other edits leave kind and lists alone, so drafts and edits make well-shaped
declarations only.
-/

namespace DeclEdit

open Declaration (Kind)

/-- What an edit makes of a declaration: another header, or another list of what was in the list
before and of parts that the edit brings along and that may be in it. The modifiers change only on a
kind that has some, unless the edit sets them. -/
inductive Edit.Outcome (edit : Edit) (current : Declaration) : Declaration → Prop
  | header (header : Header)
      (hmodifiers : header.modifiers = current.header.modifiers ∨
        current.kind.hasModifiers = true ∨ edit = .setModifiers header.modifiers) :
      Outcome edit current { current with header }
  | members (members : List Declaration)
      (hmembers : ∀ member ∈ members, member ∈ current.members ∨
        member ∈ edit.parts ∧ current.kind.Holds member.kind) :
      Outcome edit current { current with members }
  | accessors (accessors : List Declaration)
      (haccessors : ∀ accessor ∈ accessors, accessor ∈ current.accessors ∨
        accessor ∈ edit.parts ∧ current.kind.hasAccessors = true ∧ accessor.kind = .accessor) :
      Outcome edit current { current with accessors }

theorem Edit.outcome_of_editMembers {edit : Edit} {current result : Declaration}
    {change : List Declaration → Except Refusal (List Declaration)}
    (hresult : current.editMembers change = .ok result)
    (hchange : ∀ members, change current.members = .ok members →
      ∀ member ∈ members, member ∈ current.members ∨ member ∈ edit.parts) :
    edit.Outcome current result := by
  obtain ⟨-, members, hmembers, hholds, rfl⟩ := Declaration.editMembers_eq_ok_iff.1 hresult
  refine .members members fun member hmember => ?_
  exact (hchange members hmembers member hmember).imp_right fun hpart =>
    ⟨hpart, hholds member hmember⟩

theorem Edit.outcome_of_apply {conventions : Conventions} {current result : Declaration}
    {enclosing : List Declaration} {edit : Edit}
    (hresult : edit.apply conventions ⟨current, enclosing⟩ = .ok result) :
    edit.Outcome current result := by
  cases edit with
  | ofModifiers edit =>
    obtain ⟨hkind, header, rfl, -⟩ := edit.exists_moves hresult
    exact .header header (.inr (.inl hkind))
  | setModifiers modifiers =>
    cases hresult
    exact .header { current.header with modifiers } (.inr (.inr rfl))
  | setHead head =>
    cases hresult
    exact .header { current.header with head } (.inl rfl)
  | setName name =>
    cases hresult
    exact .header { current.header with name } (.inl rfl)
  | setMembers members =>
    obtain ⟨hmembers, rfl⟩ := Declaration.setMembers_eq_ok_iff.1 hresult
    exact .members members fun member hmember => .inr ⟨hmember, hmembers member hmember⟩
  | setAccessors accessors =>
    obtain ⟨haccessors, rfl⟩ := Declaration.setAccessors_eq_ok_iff.1 hresult
    exact .accessors accessors fun accessor haccessor =>
      .inr ⟨haccessor, haccessors accessor haccessor⟩
  | replaceMember index member =>
    obtain ⟨-, hmember, rfl⟩ := Declaration.replaceMember_eq_ok_iff.1 hresult
    refine .members _ fun other hother => ?_
    rcases List.mem_or_eq_of_mem_set hother with hother | rfl
    · exact .inl hother
    · exact .inr ⟨List.mem_singleton_self other, hmember⟩
  | replaceAccessor index accessor =>
    obtain ⟨-, haccessor, rfl⟩ := Declaration.replaceAccessor_eq_ok_iff.1 hresult
    refine .accessors _ fun other hother => ?_
    rcases List.mem_or_eq_of_mem_set hother with hother | rfl
    · exact .inl hother
    · exact .inr ⟨List.mem_singleton_self other, haccessor⟩
  | insertMember member =>
    rw [Edit.apply, Declaration.insertMember] at hresult
    refine outcome_of_editMembers hresult fun members hmembers other hother => ?_
    obtain ⟨index, -, hinserted⟩ := bind_eq_ok_iff.1 hmembers
    cases hinserted
    rcases List.eq_or_mem_of_mem_insertIdx hother with rfl | hother
    · exact .inr (List.mem_singleton_self other)
    · exact .inl hother
  | removeMember index =>
    rw [Edit.apply, Declaration.removeMember] at hresult
    refine outcome_of_editMembers hresult fun members hmembers other hother => ?_
    split at hmembers
    · cases hmembers
      exact .inl (List.mem_of_mem_eraseIdx hother)
    · cases hmembers
  | sortMembers =>
    rw [Edit.apply, Declaration.sortMembers] at hresult
    split at hresult
    · cases hresult
      rw [← current.eta]
      exact .header current.header (.inl rfl)
    · refine outcome_of_editMembers hresult fun members hmembers other hother => ?_
      cases hmembers
      exact .inl (List.mem_mergeSort.1 hother)

theorem Draft.finish_eq_ok_iff {draft : Draft} {result : Declaration} :
    draft.finish = .ok result ↔ ∃ modifiers, draft.readModifiers = .ok modifiers ∧
      draft.check modifiers = .ok () ∧
      result = ⟨draft.kind, draft.header modifiers, draft.members, draft.accessors⟩ ∧
      result.WellShaped := by
  unfold finish
  simp only [bind_eq_ok_iff, Declaration.setMembers_eq_ok_iff, Declaration.setAccessors_eq_ok_iff]
  constructor
  · rintro ⟨modifiers, hread, _, hcheck, filled, ⟨hmembers, rfl⟩, haccessors, rfl⟩
    exact ⟨modifiers, hread, hcheck, rfl, hmembers, haccessors⟩
  · rintro ⟨modifiers, hread, hcheck, rfl, hmembers, haccessors⟩
    exact ⟨modifiers, hread, (), hcheck, _, ⟨hmembers, rfl⟩, haccessors, rfl⟩

namespace Declaration.WellShaped

variable {declaration : Declaration}

theorem of_header (h : declaration.WellShaped) (header : Header) :
    WellShaped { declaration with header } := ⟨h.members, h.accessors⟩

theorem of_members (h : declaration.WellShaped) {members : List Declaration}
    (hmembers : ∀ member ∈ members, declaration.kind.Holds member.kind) :
    WellShaped { declaration with members } := ⟨hmembers, h.accessors⟩

theorem of_accessors (h : declaration.WellShaped) {accessors : List Declaration}
    (haccessors : ∀ accessor ∈ accessors,
      declaration.kind.hasAccessors = true ∧ accessor.kind = .accessor) :
    WellShaped { declaration with accessors } := ⟨h.members, haccessors⟩

theorem of_outcome {current result : Declaration} {edit : Edit} (h : current.WellShaped)
    (hresult : edit.Outcome current result) : result.WellShaped := by
  cases hresult with
  | header header => exact h.of_header header
  | members members hmembers =>
    apply h.of_members
    intro member hmember
    exact (hmembers member hmember).elim (h.members member) And.right
  | accessors accessors haccessors =>
    apply h.of_accessors
    intro accessor haccessor
    exact (haccessors accessor haccessor).elim (h.accessors accessor) And.right

end Declaration.WellShaped

theorem Declaration.ObtainableBy.wellShaped {may : Declaration → Edit → Prop}
    {declaration : Declaration} (h : declaration.ObtainableBy may) : declaration.WellShaped := by
  induction h with
  | drafted _ hresult =>
    obtain ⟨_, -, -, -, hshape⟩ := Draft.finish_eq_ok_iff.1 hresult
    exact hshape
  | edited _ _ _ hresult ih => exact ih.of_outcome (Edit.outcome_of_apply hresult)

theorem Declaration.Obtainable.wellShaped {declaration : Declaration} (h : declaration.Obtainable) :
    declaration.WellShaped :=
  h.obtainableBy.wellShaped

/-! ### Categories -/

theorem Declaration.isSome_category?_of_kind {declaration : Declaration}
    (h : declaration.kind.category?.isSome = true) : declaration.category?.isSome = true := by
  unfold category?
  split
  · rfl
  · exact h

theorem Declaration.Kind.isSome_category?_of_holds {container member : Kind}
    (hkind : container.ordersMembers = true) (h : container.Holds member) :
    member.category?.isSome = true := by
  cases h with
  | enumMember => cases hkind
  | typeInNameSpace htype => cases member <;> first | rfl | cases htype
  | nested => rfl
  | inType _ hcategory _ => exact hcategory

theorem Declaration.WellShaped.isSome_category? {container : Declaration}
    (h : container.WellShaped) (hkind : container.kind.ordersMembers = true) :
    ∀ member ∈ container.members, member.category?.isSome = true := fun member hmember =>
  Declaration.isSome_category?_of_kind
    (Declaration.Kind.isSome_category?_of_holds hkind (h.members member hmember))

end DeclEdit
