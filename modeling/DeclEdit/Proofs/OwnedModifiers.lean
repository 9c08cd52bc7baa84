import DeclEdit.Header.Tree
import DeclEdit.Proofs.TreeShape

/-!
# Who has modifiers

Namespaces and values of an enumeration have no modifiers, and neither a finished draft nor an edit
gives them any, with one exception: modifiers that are set as a list are not checked against the
kind. So everything that is made without such a setting keeps to the kinds, at every depth, and each
such setting leaves a declaration with modifiers that no edit of modifiers can take away.
-/

namespace DeclEdit

open Declaration (Kind Within ObtainableBy)

/-- The edit sets no modifiers on a kind without any. -/
def Edit.RespectsKind (current : Declaration) (edit : Edit) : Prop :=
  ∀ modifiers, edit = .setModifiers modifiers →
    modifiers = [] ∨ current.kind.hasModifiers = true

theorem Draft.modifiers_header_eq_nil (draft : Draft) : (draft.header []).modifiers = [] := by
  apply List.map_eq_nil_iff.1
  change (draft.header []).keywords = []
  unfold header
  split
  · rw [Header.keywords_mapFront]
    rfl
  · rfl

theorem Draft.modifiers_eq_nil_of_check {draft : Draft} {modifiers : List Modifier}
    (hkind : draft.kind.hasModifiers = false) (h : draft.check modifiers = .ok ()) :
    modifiers = [] := by
  by_contra hmodifiers
  rw [check, if_pos ⟨hmodifiers, hkind⟩] at h
  cases h

theorem Edit.Outcome.kind_eq {edit : Edit} {current result : Declaration}
    (h : edit.Outcome current result) : result.kind = current.kind := by
  cases h <;> rfl

theorem Edit.Outcome.modifiers_eq_nil {edit : Edit} {current result : Declaration}
    (h : edit.Outcome current result) (hedit : edit.RespectsKind current)
    (hkind : current.kind.hasModifiers = false) (hcurrent : current.header.modifiers = []) :
    result.header.modifiers = [] := by
  have hnone : ¬current.kind.hasModifiers = true := Bool.eq_false_iff.1 hkind
  cases h with
  | header header hmodifiers =>
    rcases hmodifiers with hsame | howner | hset
    · exact hsame.trans hcurrent
    · exact absurd howner hnone
    · exact (hedit header.modifiers hset).resolve_right hnone
  | members => exact hcurrent
  | accessors => exact hcurrent

namespace Declaration

theorem ObtainableBy.modifiers_eq_nil {declaration : Declaration}
    (h : ObtainableBy Edit.RespectsKind declaration)
    (hkind : declaration.kind.hasModifiers = false) : declaration.header.modifiers = [] := by
  induction h with
  | drafted _ hresult =>
    obtain ⟨modifiers, -, hcheck, rfl, -⟩ := Draft.finish_eq_ok_iff.1 hresult
    obtain rfl := Draft.modifiers_eq_nil_of_check hkind hcheck
    exact Draft.modifiers_header_eq_nil _
  | edited _ hedit _ hresult ih =>
    have houtcome := Edit.outcome_of_apply hresult
    rw [houtcome.kind_eq] at hkind
    exact houtcome.modifiers_eq_nil hedit hkind (ih hkind)

/-- **Only a setting of modifiers gives any to a kind without.** As long as none is made on such a
kind, no declaration of the tree that has no modifiers by its kind has any. Each one that is then
made there goes through and leaves modifiers behind. -/
theorem modifiers_eq_nil_of_respectsKind {outer inner : Declaration}
    (houter : ObtainableBy Edit.RespectsKind outer) (hinner : Within inner outer)
    (hkind : inner.kind.hasModifiers = false) :
    inner.header.modifiers = [] ∧
    ∀ (conventions : Conventions) (enclosing : List Declaration) (edit : Edit),
      ¬edit.RespectsKind inner → ∃ result, edit.apply conventions ⟨inner, enclosing⟩ = .ok result ∧
        result.kind.hasModifiers = false ∧ result.header.modifiers ≠ [] := by
  refine ⟨(houter.of_within hinner).modifiers_eq_nil hkind, ?_⟩
  intro conventions enclosing edit hedit
  simp only [Edit.RespectsKind, not_forall, not_or, exists_prop] at hedit
  obtain ⟨modifiers, rfl, hmodifiers, -⟩ := hedit
  exact ⟨_, rfl, hkind, hmodifiers⟩

/-- Modifiers are set on an enumeration, which may have some, and then on its value. -/
theorem modifiers_eq_nil_of_respectsKind_value :
    ∃ outer inner result : Declaration, ObtainableBy Edit.RespectsKind outer ∧
      outer.members.map (·.header.keywords) = [[.publicKw]] ∧ Within inner outer ∧
      inner.kind = .enumMember ∧ inner.header.modifiers = [] ∧
      (Edit.setModifiers [.spaced .publicKw]).apply ⟨Keyword.defaultOrder, .usual false⟩
        ⟨inner, []⟩ = .ok result ∧
      result.kind.hasModifiers = false ∧ result.header.modifiers ≠ [] := by
  let conventions : Conventions := ⟨Keyword.defaultOrder, .usual false⟩
  let setting : Edit := .setModifiers [.spaced .publicKw]
  let inner : Declaration := ⟨.enumMember, ⟨[], none, none, some (.plain "v")⟩, [], []⟩
  let drafted : Declaration := ⟨.enumType, ⟨[], some (.plain "enum"), none, none⟩, [inner], []⟩
  let enumeration : Declaration := drafted.setModifiers [.spaced .publicKw]
  let outer : Declaration :=
    ⟨.nameSpace, ⟨[], some (.plain "namespace"), none, none⟩, [enumeration], []⟩
  have hinner : ObtainableBy Edit.RespectsKind inner :=
    @ObtainableBy.drafted _ .enumMember [.name "v"] _ (by simp [Draft.Step.parts]) rfl
  have hdrafted : ObtainableBy Edit.RespectsKind drafted :=
    @ObtainableBy.drafted _ .enumType [.member inner] _
      (by simpa [Draft.Step.parts] using hinner) rfl
  have henumeration : ObtainableBy Edit.RespectsKind enumeration :=
    @ObtainableBy.edited _ conventions drafted _ [] setting hdrafted (fun _ _ => .inr rfl)
      (by simp [Edit.parts, setting]) rfl
  have houter : ObtainableBy Edit.RespectsKind outer :=
    @ObtainableBy.drafted _ .nameSpace [.member enumeration] _
      (by simpa [Draft.Step.parts] using henumeration) rfl
  have hwithin : Within inner outer :=
    .member List.mem_cons_self (.member List.mem_cons_self (.self inner))
  have hsetting : ¬setting.RespectsKind inner := fun h =>
    (h [.spaced .publicKw] rfl).elim (by decide) (by decide)
  obtain ⟨hnone, hbroken⟩ := modifiers_eq_nil_of_respectsKind houter hwithin rfl
  obtain ⟨result, hresult, hkind, hmodifiers⟩ := hbroken conventions [] setting hsetting
  exact ⟨outer, inner, result, houter, rfl, hwithin, rfl, hnone, hresult, hkind, hmodifiers⟩

/-- A namespace whose modifiers are set is written with them, and no edit of modifiers is done on
it any more. -/
theorem exists_obtainable_public_nameSpace :
    ∃ declaration : Declaration, declaration.Obtainable ∧
      declaration.kind.hasModifiers = false ∧ declaration.header.modifiers ≠ [] ∧
      declaration.header.text = "public namespace N" ∧
      ∀ (order : Ranking Keyword) (enclosing : List Declaration) (edit : ModifierEdit),
        edit.apply order ⟨declaration, enclosing⟩ = .error (.unsupportedKind .nameSpace) := by
  let drafted : Declaration :=
    ⟨.nameSpace, ⟨[], some ⟨"namespace", [], Trivia.space⟩, none, some (.plain "N")⟩, [], []⟩
  let declaration := drafted.setModifiers [.spaced .publicKw]
  have hdrafted : drafted.Obtainable :=
    @Obtainable.drafted .nameSpace [.name "N"] _ (by simp [Draft.Step.parts]) rfl
  have hdeclaration : declaration.Obtainable :=
    @Obtainable.edited ⟨Keyword.defaultOrder, .usual false⟩ drafted declaration []
      (.setModifiers [.spaced .publicKw]) hdrafted (by simp [Edit.parts]) rfl
  refine ⟨declaration, hdeclaration, rfl, by decide, rfl, fun order enclosing edit => ?_⟩
  cases edit <;> rfl

end Declaration

end DeclEdit
