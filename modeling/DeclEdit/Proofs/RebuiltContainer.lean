import DeclEdit.Proofs.LevelFrame
import DeclEdit.Proofs.Shape

/-!
# A container with a member of another level

The order of members is read off their categories and names, and what a member may be is read off
its kind. A change of level leaves all of these alone, so the changed member goes back where it came
from and the members are as sorted as before. The other members see of their container its kind and
its header only, and these are the same.
-/

namespace DeclEdit

variable {α κ : Type}

/-- Sortedness is read off the keys of the items, if these decide the relation. -/
theorem ascending_congr {le : α → α → Bool} {key : α → κ}
    (hle : ∀ a b a' b', key a' = key a → key b' = key b → le a' b' = le a b)
    {items others : List α} (hkeys : others.map key = items.map key) :
    ascending le others = ascending le items := by
  induction items generalizing others with
  | nil =>
    obtain rfl : others = [] := List.map_eq_nil_iff.1 hkeys
    rfl
  | cons x rest ih =>
    obtain ⟨x', rest', rfl, hx, hrest⟩ := List.map_eq_cons_iff.1 hkeys
    cases rest with
    | nil =>
      obtain rfl : rest' = [] := List.map_eq_nil_iff.1 hrest
      rfl
    | cons y rest =>
      obtain ⟨y', rest', rfl, hy, -⟩ := List.map_eq_cons_iff.1 hrest
      rw [ascending, ascending, hle x y x' y' hx hy, ih hrest]

theorem map_set_of_eq {key : α → κ} {items : List α} {index : Nat} {old new : α}
    (hold : items[index]? = some old) (hkey : key new = key old) :
    (items.set index new).map key = items.map key := by
  obtain ⟨hindex, rfl⟩ := List.getElem?_eq_some_iff.1 hold
  rw [List.map_set, hkey, ← List.getElem_map key, List.set_getElem_self]
  rwa [List.length_map]

/-- What an arrangement looks at in a member. -/
def Declaration.sortKey (declaration : Declaration) : Option Category × String :=
  (declaration.category?, declaration.sortName)

theorem Arrangement.isSorted_congr (arrangement : Arrangement) {members others : List Declaration}
    (hkeys : others.map Declaration.sortKey = members.map Declaration.sortKey) :
    arrangement.isSorted others = arrangement.isSorted members := by
  refine ascending_congr ?_ hkeys
  intro a b a' b' ha hb
  have hcompare : arrangement.compare a' b' = arrangement.compare a b := by
    obtain ⟨hcategoryA, hnameA⟩ := Prod.ext_iff.1 ha
    obtain ⟨hcategoryB, hnameB⟩ := Prod.ext_iff.1 hb
    dsimp only [Declaration.sortKey] at hcategoryA hnameA hcategoryB hnameB
    simp only [compare, hcategoryA, hnameA, hcategoryB, hnameB]
  rw [le, le, hcompare]

namespace Site

/-- What lies in a declaration sees of it the kind and the header only. -/
theorem accessibility_of_members (sibling container : Declaration)
    (enclosing members : List Declaration) :
    Site.accessibility ⟨sibling, { container with members } :: enclosing⟩ =
      Site.accessibility ⟨sibling, container :: enclosing⟩ := by
  have howner : Accessibility.effective { container with members } enclosing =
      Accessibility.effective container enclosing := by
    cases enclosing <;> rfl
  simp only [Site.accessibility, Accessibility.effective, howner]

end Site

namespace Declaration

open Site (accessibility defaultAccessibility)

variable {container member result : Declaration} {index : Nat}

theorem SameButLevel.sortKey_eq (h : SameButLevel member result) :
    result.sortKey = member.sortKey :=
  Prod.ext h.category?_eq h.sortName_eq

/-- **A member of another level fits where the old one was.** If the level of a member is changed,
or its default level written out, within a container that drafts and edits have made, the container
takes the result in place of the member. Every other member stays what it was and has the levels
that it had, and the members are sorted if and only if they were, whatever the arrangement. -/
theorem exists_replaceMember_of_level {order : Ranking Keyword} {level : Accessibility}
    {enclosing : List Declaration} (hcontainer : container.Obtainable)
    (horder : order.Lawful Keyword.all.length) (hmember : container.members[index]? = some member)
    (hresult : Site.changeAccessibility order level ⟨member, container :: enclosing⟩ = .ok result ∨
      Site.addAccessibility order ⟨member, container :: enclosing⟩ = .ok result) :
    ∃ rebuilt, container.replaceMember index result = .ok rebuilt ∧
      rebuilt.members.length = container.members.length ∧
      rebuilt.members[index]? = some result ∧
      (∀ arrangement : Arrangement,
        arrangement.isSorted rebuilt.members = arrangement.isSorted container.members) ∧
      ∀ other, other ≠ index → rebuilt.members[other]? = container.members[other]? ∧
        ∀ sibling, container.members[other]? = some sibling →
          accessibility ⟨sibling, rebuilt :: enclosing⟩ =
            accessibility ⟨sibling, container :: enclosing⟩ ∧
          defaultAccessibility ⟨sibling, rebuilt :: enclosing⟩ =
            defaultAccessibility ⟨sibling, container :: enclosing⟩ := by
  have hsame : member.SameButLevel result :=
    hresult.elim (Site.sameButLevel_of_changeAccessibility horder)
      (Site.sameButLevel_of_addAccessibility horder)
  obtain ⟨hindex, hget⟩ := List.getElem?_eq_some_iff.1 hmember
  have hholds : container.kind.Holds result.kind := by
    rw [hsame.kind]
    exact hcontainer.wellShaped.members member (hget ▸ List.getElem_mem hindex)
  refine ⟨{ container with members := container.members.set index result },
    replaceMember_eq_ok_iff.2 ⟨hindex, hholds, rfl⟩, List.length_set, ?_, ?_, ?_⟩
  · exact List.getElem?_set_self hindex
  · intro arrangement
    exact arrangement.isSorted_congr (map_set_of_eq hmember hsame.sortKey_eq)
  · intro other hother
    refine ⟨List.getElem?_set_ne (Ne.symm hother), fun sibling _ => ⟨?_, rfl⟩⟩
    exact Site.accessibility_of_members ..

/-- A constant becomes public, which brings the keyword to the front. The constants are sorted by
name before and after. -/
theorem exists_replaceMember_of_level_constant :
    ∃ container result rebuilt : Declaration,
      container.members.map (·.header.keywords) = [[.constKw], [.constKw]] ∧
      container.replaceMember 0 result = .ok rebuilt ∧
      rebuilt.members.map (·.header.keywords) = [[.publicKw, .constKw], [.constKw]] ∧
      (Arrangement.usual true).isSorted rebuilt.members = true ∧
      ∀ sibling, container.members[1]? = some sibling →
        accessibility ⟨sibling, [rebuilt]⟩ = accessibility ⟨sibling, [container]⟩ := by
  let constant (name : String) : Declaration :=
    ⟨.field, ⟨[.spaced .constKw], none, none, some (.plain name)⟩, [], []⟩
  let container : Declaration := ⟨.classType, ⟨[], some (.plain "class"), none, none⟩,
    [constant "a", constant "b"], []⟩
  let result : Declaration := ⟨.field,
    ⟨[⟨.publicKw, [.elasticMarker], [.elasticSpace]⟩, .spaced .constKw], none, none,
      some (.plain "a")⟩, [], []⟩
  have ha : (constant "a").Obtainable :=
    @Obtainable.drafted .field [.keywords "const", .name "a"] _ (by simp [Draft.Step.parts]) rfl
  have hb : (constant "b").Obtainable :=
    @Obtainable.drafted .field [.keywords "const", .name "b"] _ (by simp [Draft.Step.parts]) rfl
  have hcontainer : container.Obtainable :=
    @Obtainable.drafted .classType [.member (constant "a"), .member (constant "b")] _
      (by simp [Draft.Step.parts, ha, hb]) rfl
  have hresult : Site.changeAccessibility Keyword.defaultOrder .publicAccess
      ⟨constant "a", [container]⟩ = .ok result := rfl
  obtain ⟨rebuilt, hrebuilt, -, -, hsorted, hothers⟩ := @exists_replaceMember_of_level container
    (constant "a") result 0 _ _ [] hcontainer Keyword.lawful_defaultOrder rfl (.inl hresult)
  obtain ⟨-, hlevels⟩ := hothers 1 (by decide)
  refine ⟨container, result, rebuilt, rfl, hrebuilt, ?_, (hsorted _).trans (by decide),
    fun sibling hsibling => (hlevels sibling hsibling).1⟩
  obtain rfl := Except.ok.inj hrebuilt
  rfl

end Declaration

end DeclEdit
