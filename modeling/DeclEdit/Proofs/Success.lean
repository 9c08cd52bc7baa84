import DeclEdit.Declaration.Shape
import DeclEdit.Member.Arrangement

/-!
# When an edit succeeds

One equivalence for each way to make a new declaration from an old one: which checks were passed,
and what comes out.
-/

namespace DeclEdit

variable {ε α β : Type}

theorem bind_eq_ok_iff {first : Except ε α} {next : α → Except ε β} {result : β} :
    first >>= next = .ok result ↔ ∃ value, first = .ok value ∧ next value = .ok result := by
  constructor
  · intro h
    cases first with
    | error refusal => cases h
    | ok value => exact ⟨value, rfl, h⟩
  · rintro ⟨value, rfl, hnext⟩
    exact hnext

theorem check_bind_eq_ok_iff {check : Except ε Unit} {value result : α} :
    (check >>= fun _ => pure value) = .ok result ↔ check = .ok () ∧ result = value := by
  rw [bind_eq_ok_iff]
  constructor
  · rintro ⟨_, hcheck, hresult⟩
    exact ⟨hcheck, (Except.ok.inj hresult).symm⟩
  · rintro ⟨hcheck, rfl⟩
    exact ⟨(), hcheck, rfl⟩

theorem forM_eq_ok_iff {check : α → Except ε Unit} {items : List α} :
    items.forM check = .ok () ↔ ∀ x ∈ items, check x = .ok () := by
  induction items with
  | nil => simp [pure, Except.pure]
  | cons x rest ih =>
    change (check x >>= fun _ => rest.forM check) = .ok () ↔ _
    rw [bind_eq_ok_iff, List.forall_mem_cons, ← ih]
    constructor
    · rintro ⟨_, hx, hrest⟩
      exact ⟨hx, hrest⟩
    · rintro ⟨hx, hrest⟩
      exact ⟨(), hx, hrest⟩

namespace Declaration

/-- Holds by cases only, as a declaration has declarations inside. -/
theorem eta (declaration : Declaration) :
    ⟨declaration.kind, declaration.header, declaration.members, declaration.accessors⟩ =
      declaration := by
  cases declaration
  rfl

variable {declaration result : Declaration}

theorem editHeader_eq_ok_iff {edit : Header → Except Refusal Header} :
    declaration.editHeader edit = .ok result ↔ declaration.kind.hasModifiers = true ∧
      ∃ header, edit declaration.header = .ok header ∧ result = { declaration with header } := by
  unfold editHeader
  split
  · next hkind =>
    rw [bind_eq_ok_iff]
    constructor
    · rintro ⟨header, hheader, hresult⟩
      exact ⟨hkind, header, hheader, (Except.ok.inj hresult).symm⟩
    · rintro ⟨_, header, hheader, rfl⟩
      exact ⟨header, hheader, rfl⟩
  · next hkind => simp [hkind]

theorem setMembers_eq_ok_iff {members : List Declaration} :
    declaration.setMembers members = .ok result ↔
      (∀ member ∈ members, declaration.kind.Holds member.kind) ∧
        result = { declaration with members } := by
  rw [setMembers, check_bind_eq_ok_iff, forM_eq_ok_iff]
  simp only [admitMember_eq_ok_iff]

theorem setAccessors_eq_ok_iff {accessors : List Declaration} :
    declaration.setAccessors accessors = .ok result ↔
      (∀ accessor ∈ accessors, declaration.kind.hasAccessors = true ∧ accessor.kind = .accessor) ∧
        result = { declaration with accessors } := by
  rw [setAccessors, check_bind_eq_ok_iff, forM_eq_ok_iff]
  simp only [admitAccessor_eq_ok_iff]

theorem replaceMember_eq_ok_iff {index : Nat} {member : Declaration} :
    declaration.replaceMember index member = .ok result ↔
      index < declaration.members.length ∧ declaration.kind.Holds member.kind ∧
        result = { declaration with members := declaration.members.set index member } := by
  unfold replaceMember
  split
  · next hindex => rw [check_bind_eq_ok_iff, admitMember_eq_ok_iff, and_iff_right hindex]
  · next hindex => simp [hindex]

theorem replaceAccessor_eq_ok_iff {index : Nat} {accessor : Declaration} :
    declaration.replaceAccessor index accessor = .ok result ↔
      index < declaration.accessors.length ∧
        (declaration.kind.hasAccessors = true ∧ accessor.kind = .accessor) ∧
        result = { declaration with accessors := declaration.accessors.set index accessor } := by
  unfold replaceAccessor
  split
  · next hindex => rw [check_bind_eq_ok_iff, admitAccessor_eq_ok_iff, and_iff_right hindex]
  · next hindex => simp [hindex]

theorem editMembers_eq_ok_iff {edit : List Declaration → Except Refusal (List Declaration)} :
    declaration.editMembers edit = .ok result ↔ declaration.kind.ordersMembers = true ∧
      ∃ members, edit declaration.members = .ok members ∧
        (∀ member ∈ members, declaration.kind.Holds member.kind) ∧
        result = { declaration with members } := by
  unfold editMembers
  split
  · next hkind =>
    rw [bind_eq_ok_iff]
    simp only [setMembers_eq_ok_iff, hkind, true_and]
  · next hkind => simp [hkind]

end Declaration

end DeclEdit
