import DeclEdit.Declaration

/-!
# The shape of a declaration

What the member lists and the accessor lists of a well-shaped declaration hold, said kind by kind.
The checks that are made where a list is replaced accept exactly that.
-/

namespace DeclEdit.Declaration

/-- A container of the first kind may hold a member of the second. -/
inductive Kind.Holds : Kind → Kind → Prop
  | enumMember : Holds enumType enumMember
  | typeInNameSpace {member : Kind} (htype : member.isType = true) : Holds nameSpace member
  | nested : Holds nameSpace nameSpace
  | inType {container member : Kind} (hcontainer : container ∈ [classType, structType, interfaceType])
      (hcategory : member.category?.isSome = true) (hmember : member ≠ nameSpace) :
      Holds container member

theorem Kind.admits_eq_true_iff {container member : Kind} :
    container.admits member = true ↔ container.Holds member := by
  constructor
  · intro h
    cases container <;> simp only [admits, Bool.or_eq_true, Bool.and_eq_true, decide_eq_true_eq,
      Bool.false_eq_true] at h
    case enumType => exact h ▸ .enumMember
    case nameSpace =>
      rcases h with h | h
      · exact .typeInNameSpace h
      · exact h ▸ .nested
    all_goals exact .inType (by simp) h.1 h.2
  · rintro (_ | h | _ | ⟨hcontainer, hcategory, hmember⟩)
    · rfl
    · simp [admits, h]
    · rfl
    · simp only [List.mem_cons, List.not_mem_nil, or_false] at hcontainer
      rcases hcontainer with rfl | rfl | rfl <;> simp [admits, hcategory, hmember]

theorem Kind.hasMembers_of_holds {container member : Kind} (h : container.Holds member) :
    container.hasMembers = true := by
  rcases h with _ | _ | _ | ⟨hcontainer, _, _⟩
  case inType =>
    simp only [List.mem_cons, List.not_mem_nil, or_false] at hcontainer
    rcases hcontainer with rfl | rfl | rfl <;> rfl
  all_goals rfl

theorem admitMember_eq_ok_iff {container : Kind} {member : Declaration} :
    admitMember container member = .ok () ↔ container.Holds member.kind := by
  rw [← Kind.admits_eq_true_iff]
  by_cases h : container.admits member.kind = true
  · simp [admitMember, h, Kind.hasMembers_of_holds (Kind.admits_eq_true_iff.1 h)]
  · simp only [admitMember, h]
    split <;> simp

theorem admitAccessor_eq_ok_iff {owner : Kind} {accessor : Declaration} :
    admitAccessor owner accessor = .ok () ↔
      owner.hasAccessors = true ∧ accessor.kind = .accessor := by
  unfold admitAccessor
  split
  · simp_all
  · split <;> simp_all

/-- Its own lists hold what they may hold; nothing is said of what lies deeper. -/
structure WellShaped (declaration : Declaration) : Prop where
  members : ∀ member ∈ declaration.members, declaration.kind.Holds member.kind
  accessors : ∀ accessor ∈ declaration.accessors,
    declaration.kind.hasAccessors = true ∧ accessor.kind = .accessor

/-- The first declaration is the second one or lies somewhere in it. -/
inductive Within : Declaration → Declaration → Prop
  | self (declaration : Declaration) : Within declaration declaration
  | member {inner outer member : Declaration} (hmember : member ∈ outer.members)
      (hinner : Within inner member) : Within inner outer
  | accessor {inner outer accessor : Declaration} (haccessor : accessor ∈ outer.accessors)
      (hinner : Within inner accessor) : Within inner outer

end DeclEdit.Declaration
