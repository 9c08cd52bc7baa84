import DeclEdit.Proofs.ModifierFrame

/-!
# What a change of level leaves alone

A change of accessibility, to whatever level and on whatever modifiers, takes visibility keywords
away and brings visibility keywords in. So does writing the default out. All other keywords stay,
and with them everything that is read off a declaration besides its level: its category, the name it
is sorted by and its default level.
-/

namespace DeclEdit

open Accessibility (others)

theorem Accessibility.mem_others_iff {keywords : List Keyword} {keyword : Keyword}
    (hkeyword : keyword.isVisibility = false) : keyword ∈ others keywords ↔ keyword ∈ keywords := by
  rw [others, List.mem_filter, hkeyword]
  exact and_iff_left rfl

namespace Header

variable {order : Ranking Keyword} {header result : Header} {level : Accessibility}

theorem others_of_insertKeywords (horder : order.Lawful Keyword.all.length)
    (h : header.insertKeywords order level.keywords = .ok result) :
    others result.keywords = others header.keywords := by
  obtain ⟨inserted, hinserted, -, hothers⟩ := exists_insertKeywords_of_level horder level header
  obtain rfl : inserted = result := Except.ok.inj (hinserted.symm.trans h)
  exact hothers

theorem others_of_setAccessibility (horder : order.Lawful Keyword.all.length)
    (h : header.setAccessibility order level = .ok result) :
    others result.keywords = others header.keywords := by
  obtain ⟨swapped?, hswap, hresult⟩ := bind_eq_ok_iff.1 h
  cases swapped? with
  | some swapped =>
    cases hresult
    obtain ⟨_, first, keyword, _, hread, hlevel, -, -, rfl⟩ :=
      exists_of_swapAccessibility?_eq_some hswap
    rw [keywords_swapAt]
    exact Accessibility.others_set_first hread
      (Accessibility.isVisibility_of_mem_keywords (hlevel ▸ List.mem_singleton_self keyword))
  | none =>
    rw [← others_removeAccessibility header]
    exact others_of_insertKeywords horder hresult

end Header

namespace Declaration

/-- The declarations differ at most in their visibility keywords and in layout. -/
structure SameButLevel (start result : Declaration) : Prop
    extends SameButModifiers start result where
  others : others result.header.keywords = others start.header.keywords

namespace SameButLevel

variable {start result : Declaration} (h : SameButLevel start result)
include h

theorem hasKeyword_eq {keyword : Keyword} (hkeyword : keyword.isVisibility = false) :
    result.header.hasKeyword keyword = start.header.hasKeyword keyword := by
  refine decide_eq_decide.2 ?_
  rw [← Accessibility.mem_others_iff hkeyword, h.others, Accessibility.mem_others_iff hkeyword]

/-- A field stays as constant as it was. -/
theorem category?_eq : result.category? = start.category? := by
  rw [category?, category?, h.kind, h.hasKeyword_eq rfl]

theorem sortName_eq : result.sortName = start.sortName := by
  rw [sortName, sortName, h.header.nameText?_eq]

theorem byDefault_eq (parentKind? : Option Kind) :
    Accessibility.byDefault result parentKind? = Accessibility.byDefault start parentKind? := by
  have hstatic : result.header.hasKeyword .staticKw = start.header.hasKeyword .staticKw :=
    h.hasKeyword_eq rfl
  have hpartial : result.header.hasKeyword .partialKw = start.header.hasKeyword .partialKw :=
    h.hasKeyword_eq rfl
  simp only [Accessibility.byDefault, h.kind, h.header.explicitInterface, hstatic, hpartial]

end SameButLevel

end Declaration

namespace Site

variable {order : Ranking Keyword} {site : Site} {level : Accessibility} {result : Declaration}

theorem sameButLevel_of_changeAccessibility (horder : order.Lawful Keyword.all.length)
    (h : site.changeAccessibility order level = .ok result) :
    site.declaration.SameButLevel result := by
  have hsame := @ModifierEdit.sameButModifiers_of_apply order (.changeAccessibility level) site _ h
  obtain ⟨-, header, hheader, rfl⟩ := Declaration.editHeader_eq_ok_iff.1 h
  refine ⟨hsame, ?_⟩
  split at hheader
  · cases hheader
    rfl
  · exact Header.others_of_setAccessibility horder hheader

theorem sameButLevel_of_addAccessibility (horder : order.Lawful Keyword.all.length)
    (h : site.addAccessibility order = .ok result) : site.declaration.SameButLevel result := by
  have hsame := @ModifierEdit.sameButModifiers_of_apply order .addAccessibility site _ h
  obtain ⟨-, header, hheader, rfl⟩ := Declaration.editHeader_eq_ok_iff.1 h
  refine ⟨hsame, ?_⟩
  split at hheader
  · cases hheader
    rfl
  · exact Header.others_of_insertKeywords horder hheader

end Site

end DeclEdit
