import DeclEdit.Proofs.Shape

/-!
# The shape holds at every depth

What lies in a declaration came in with a step of a draft or with an edit, so all of it can be
obtained like the whole. What is true of everything that can be obtained is therefore true of every
declaration of the tree, and so is the shape that the checks ask for, list by list.
-/

namespace DeclEdit

open Declaration (Kind Within)

/-- The declarations right below one. -/
def Declaration.parts (declaration : Declaration) : List Declaration :=
  declaration.members ++ declaration.accessors

def Draft.parts (draft : Draft) : List Declaration := draft.members ++ draft.accessors

/-! ### Where the parts come from -/

theorem Draft.mem_parts_apply {draft : Draft} {step : Draft.Step} {part : Declaration}
    (h : part ∈ (draft.apply step).parts) : part ∈ draft.parts ∨ part ∈ step.parts := by
  cases step
  all_goals
    simp only [parts, apply, Step.parts, List.mem_append, List.mem_singleton] at h ⊢
    grind

theorem Draft.exists_mem_parts_of_foldl {steps : List Draft.Step} {draft : Draft}
    {part : Declaration} (h : part ∈ (steps.foldl apply draft).parts) :
    part ∈ draft.parts ∨ ∃ step ∈ steps, part ∈ step.parts := by
  induction steps generalizing draft with
  | nil => exact .inl h
  | cons step rest ih =>
    rcases ih h with hfirst | ⟨later, hlater, hpart⟩
    · exact (mem_parts_apply hfirst).imp_right fun hstep => ⟨step, List.mem_cons_self, hstep⟩
    · exact .inr ⟨later, .tail _ hlater, hpart⟩

theorem Draft.exists_mem_parts_of_run {kind : Kind} {steps : List Draft.Step} {part : Declaration}
    (h : part ∈ (run kind steps).parts) : ∃ step ∈ steps, part ∈ step.parts :=
  (exists_mem_parts_of_foldl h).resolve_left (by simp [parts, start])

theorem Edit.Outcome.mem_parts {edit : Edit} {current result part : Declaration}
    (h : edit.Outcome current result) (hpart : part ∈ result.parts) :
    part ∈ current.parts ∨ part ∈ edit.parts := by
  cases h with
  | header => exact .inl hpart
  | members members hmembers =>
    rcases List.mem_append.1 hpart with hmember | haccessor
    · exact (hmembers part hmember).imp (List.mem_append_left _) And.left
    · exact .inl (List.mem_append_right _ haccessor)
  | accessors accessors haccessors =>
    rcases List.mem_append.1 hpart with hmember | haccessor
    · exact .inl (List.mem_append_left _ hmember)
    · exact (haccessors part haccessor).imp (List.mem_append_right _) And.left

namespace Declaration

variable {may : Declaration → Edit → Prop} {declaration inner outer : Declaration}

theorem ObtainableBy.of_mem_parts (h : declaration.ObtainableBy may) :
    ∀ part ∈ declaration.parts, part.ObtainableBy may := by
  induction h with
  | drafted hparts hresult =>
    intro part hpart
    obtain ⟨_, -, -, rfl, -⟩ := Draft.finish_eq_ok_iff.1 hresult
    obtain ⟨step, hstep, hpart⟩ := Draft.exists_mem_parts_of_run hpart
    exact hparts step hstep part hpart
  | edited _ _ hparts hresult ih =>
    intro part hpart
    exact ((Edit.outcome_of_apply hresult).mem_parts hpart).elim (ih part) (hparts part)

theorem ObtainableBy.of_within (h : outer.ObtainableBy may) (hinner : Within inner outer) :
    inner.ObtainableBy may := by
  induction hinner with
  | self => exact h
  | member hmember _ ih => exact ih (h.of_mem_parts _ (List.mem_append_left _ hmember))
  | accessor haccessor _ ih => exact ih (h.of_mem_parts _ (List.mem_append_right _ haccessor))

/-! ### What each kind holds -/

theorem Kind.Holds.mem_containers {container member : Kind} (h : container.Holds member) :
    container ∈ [.classType, .structType, .interfaceType, .enumType, .nameSpace] := by
  cases h with
  | enumMember => decide
  | typeInNameSpace => decide
  | nested => decide
  | inType hcontainer => exact List.mem_append_left [.enumType, .nameSpace] hcontainer

theorem Kind.Holds.eq_enumMember {member : Kind} (h : Kind.enumType.Holds member) :
    member = .enumMember := by
  cases h with
  | enumMember => rfl
  | inType hcontainer => exact absurd hcontainer (by decide)

theorem Kind.Holds.isType_or_eq {member : Kind} (h : Kind.nameSpace.Holds member) :
    member.isType = true ∨ member = .nameSpace := by
  cases h with
  | typeInNameSpace htype => exact .inl htype
  | nested => exact .inr rfl
  | inType hcontainer => exact absurd hcontainer (by decide)

/-- Constant fields form a category apart, but no namespace does. -/
theorem Kind.Holds.exists_category {container : Kind}
    (hcontainer : container ∈ [.classType, .structType, .interfaceType])
    (h : container.Holds declaration.kind) :
    ∃ category, declaration.category? = some category ∧ category ≠ .nameSpace := by
  have hkind : declaration.kind.category?.isSome = true ∧ declaration.kind ≠ .nameSpace := by
    generalize hmember : declaration.kind = member at h
    cases h with
    | inType _ hcategory hne => exact ⟨hcategory, hne⟩
    | _ => exact absurd hcontainer (by decide)
  unfold Declaration.category?
  split
  · exact ⟨.constField, rfl, by decide⟩
  · obtain ⟨hsome, hne⟩ := hkind
    cases hkind : declaration.kind <;> simp_all [Kind.category?]

/-- **The shape holds at every depth.** Of whatever drafts and edits make, at every declaration of
the tree: members stand in types and namespaces only, those of an enumeration are its values, those
of a namespace are types and namespaces, those of any other type have a category and are no
namespaces. Accessors stand in properties, indexers and events only, and nothing else stands among
them. -/
theorem Obtainable.shape_of_within (houter : outer.Obtainable) (hinner : Within inner outer) :
    (inner.members ≠ [] →
      inner.kind ∈ [.classType, .structType, .interfaceType, .enumType, .nameSpace]) ∧
    (inner.kind = .enumType → ∀ member ∈ inner.members, member.kind = .enumMember) ∧
    (inner.kind = .nameSpace → ∀ member ∈ inner.members,
      member.kind.isType = true ∨ member.kind = .nameSpace) ∧
    (inner.kind ∈ [.classType, .structType, .interfaceType] → ∀ member ∈ inner.members,
      ∃ category, member.category? = some category ∧ category ≠ .nameSpace) ∧
    (inner.accessors ≠ [] → inner.kind ∈ [.property, .indexer, .event]) ∧
    ∀ accessor ∈ inner.accessors, accessor.kind = .accessor := by
  have hshape : inner.WellShaped := (houter.obtainableBy.of_within hinner).wellShaped
  refine ⟨?_, ?_, ?_, ?_, ?_, fun accessor haccessor => (hshape.accessors accessor haccessor).2⟩
  · intro hmembers
    obtain ⟨member, hmember⟩ := List.exists_mem_of_ne_nil _ hmembers
    exact (hshape.members member hmember).mem_containers
  · intro hkind member hmember
    exact (hkind ▸ hshape.members member hmember).eq_enumMember
  · intro hkind member hmember
    exact (hkind ▸ hshape.members member hmember).isType_or_eq
  · intro hkind member hmember
    exact (hshape.members member hmember).exists_category hkind
  · intro haccessors
    obtain ⟨accessor, haccessor⟩ := List.exists_mem_of_ne_nil _ haccessors
    have howner := (hshape.accessors accessor haccessor).1
    cases hkind : inner.kind <;> simp_all [Kind.hasAccessors]

/-- A class in a namespace, with a constant and a property, after an enumeration has come in. -/
theorem Obtainable.shape_of_within_nameSpace :
    ∃ outer inner : Declaration, outer.Obtainable ∧ Within inner outer ∧
      outer.members.map (·.kind) = [.enumType, .classType] ∧
      inner.kind = .classType ∧ inner.members.map (·.kind) = [.field, .property] ∧
      ∀ member ∈ inner.members,
        ∃ category, member.category? = some category ∧ category ≠ .nameSpace := by
  let value : Declaration := ⟨.enumMember, ⟨[], none, none, some (.plain "v")⟩, [], []⟩
  let getter : Declaration := ⟨.accessor, ⟨[], some (.plain "get"), none, none⟩, [], []⟩
  let field : Declaration := ⟨.field, ⟨[.spaced .constKw], none, none, some (.plain "f")⟩, [], []⟩
  let property : Declaration :=
    ⟨.property, ⟨[], none, none, some (.plain "p")⟩, [], [getter]⟩
  let enumeration : Declaration := ⟨.enumType, ⟨[], some (.plain "enum"), none, none⟩, [value], []⟩
  let inner : Declaration :=
    ⟨.classType, ⟨[], some (.plain "class"), none, none⟩, [field, property], []⟩
  let drafted : Declaration := ⟨.nameSpace, ⟨[], some (.plain "namespace"), none, none⟩, [inner], []⟩
  let outer : Declaration := { drafted with members := [enumeration, inner] }
  have hvalue : value.Obtainable :=
    @Obtainable.drafted .enumMember [.name "v"] _ (by simp [Draft.Step.parts]) rfl
  have hgetter : getter.Obtainable :=
    @Obtainable.drafted .accessor [.head "get"] _ (by simp [Draft.Step.parts]) rfl
  have hfield : field.Obtainable :=
    @Obtainable.drafted .field [.keywords "const", .name "f"] _ (by simp [Draft.Step.parts]) rfl
  have hproperty : property.Obtainable :=
    @Obtainable.drafted .property [.name "p", .accessor getter] _
      (by simpa [Draft.Step.parts] using hgetter) rfl
  have henumeration : enumeration.Obtainable :=
    @Obtainable.drafted .enumType [.member value] _
      (by simpa [Draft.Step.parts] using hvalue) rfl
  have hinner : inner.Obtainable :=
    @Obtainable.drafted .classType [.members [field, property]] _
      (by simp [Draft.Step.parts, hfield, hproperty]) rfl
  have hdrafted : drafted.Obtainable :=
    @Obtainable.drafted .nameSpace [.member inner] _
      (by simpa [Draft.Step.parts] using hinner) rfl
  have houter : outer.Obtainable :=
    @Obtainable.edited ⟨Keyword.defaultOrder, .usual false⟩ drafted outer [] (.insertMember enumeration)
      hdrafted (by simpa [Edit.parts] using henumeration) rfl
  have hwithin : Within inner outer :=
    .member (.tail _ List.mem_cons_self) (.self inner)
  obtain ⟨-, -, -, hmembers, -, -⟩ := houter.shape_of_within hwithin
  exact ⟨outer, inner, houter, hwithin, rfl, rfl, rfl, hmembers (by decide)⟩

end Declaration

end DeclEdit
