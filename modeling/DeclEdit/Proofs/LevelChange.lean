import DeclEdit.Keyword.Order
import DeclEdit.Proofs.HeaderMoves
import DeclEdit.Proofs.LevelReading

/-!
# What a change of accessibility achieves

Where the visibility keywords spell a level, a change to another level makes them spell that one and
leaves all other keywords in their order. The two ways to get there, the swap of one keyword and the
removal followed by insertions, meet in this statement, and reading the result gives the level back.
-/

namespace DeclEdit

namespace Header

open Accessibility (others Spells)

variable {order : Ranking Keyword} {header : Header} {level : Accessibility}

/-! ### Insertion of keywords -/

theorem exists_insert (horder : order.Lawful Keyword.all.length) (header : Header)
    (modifier : Modifier) :
    ∃ index, index ≤ header.keywords.length ∧
      header.insert order modifier = .ok (header.insertAt index modifier) := by
  obtain ⟨index, hindex, hplace⟩ := horder.exists_insertIndex header.keywords modifier.keyword
  exact ⟨index, hplace.le_length, insert_eq_ok_iff.2 ⟨index, hindex, rfl⟩⟩

theorem filter_keywords_insertAt (header : Header) {index : Nat} (modifier : Modifier)
    (hindex : index ≤ header.keywords.length) (hvisible : modifier.keyword.isVisibility = true) :
    ((header.insertAt index modifier).keywords.filter Keyword.isVisibility).Perm
        (modifier.keyword :: header.keywords.filter Keyword.isVisibility) ∧
      others (header.insertAt index modifier).keywords = others header.keywords := by
  rw [keywords_insertAt, insertIdx_eq_take_append_cons_drop hindex]
  constructor
  · rw [List.filter_append, List.filter_cons_of_pos hvisible]
    apply List.perm_middle.trans
    rw [← List.filter_append, List.take_append_drop]
  · rw [Accessibility.others_append, Accessibility.others_cons_of_isVisibility hvisible,
      ← Accessibility.others_append, List.take_append_drop]

theorem exists_insertKeywords (horder : order.Lawful Keyword.all.length) {keywords : List Keyword}
    (hvisible : ∀ keyword ∈ keywords, keyword.isVisibility = true) (header : Header) :
    ∃ result, header.insertKeywords order keywords = .ok result ∧
      (result.keywords.filter Keyword.isVisibility).Perm
        (keywords ++ header.keywords.filter Keyword.isVisibility) ∧
      others result.keywords = others header.keywords := by
  induction keywords generalizing header with
  | nil => exact ⟨header, rfl, .refl _, rfl⟩
  | cons keyword rest ih =>
    obtain ⟨index, hindex, hinsert⟩ := exists_insert horder header (.elastic keyword)
    obtain ⟨hfirst, hothers⟩ := header.filter_keywords_insertAt (.elastic keyword) hindex
      (hvisible keyword List.mem_cons_self)
    obtain ⟨result, hresult, hrest, hkept⟩ := ih
      (fun other hother => hvisible other (.tail _ hother))
      (header.insertAt index (.elastic keyword))
    refine ⟨result, ?_, ?_, hkept.trans hothers⟩
    · rw [insertKeywords_cons, hinsert]
      exact hresult
    · exact hrest.trans ((hfirst.append_left rest).trans List.perm_middle)

/-- All keywords of a level are visibility keywords. -/
theorem exists_insertKeywords_of_level (horder : order.Lawful Keyword.all.length)
    (level : Accessibility) (header : Header) :
    ∃ result, header.insertKeywords order level.keywords = .ok result ∧
      (result.keywords.filter Keyword.isVisibility).Perm
        (level.keywords ++ header.keywords.filter Keyword.isVisibility) ∧
      others result.keywords = others header.keywords :=
  exists_insertKeywords horder
    (fun _ hkeyword => Accessibility.isVisibility_of_mem_keywords hkeyword) header

/-! ### The two ways to a level -/

theorem exists_swapAccessibility? (horder : order.Lawful Keyword.all.length) (header : Header)
    (level : Accessibility) :
    ∃ swapped?, header.swapAccessibility? order level = .ok swapped? := by
  unfold swapAccessibility?
  split
  · next keyword _ _ =>
    obtain ⟨index, hindex, -⟩ := horder.exists_insertIndex header.keywords keyword
    rw [hindex]
    exact ⟨_, (apply_ite Except.ok _ _ _).symm⟩
  · exact ⟨none, rfl⟩

/-- Whichever way is taken, the keywords spell the level afterwards. -/
theorem exists_setAccessibility (horder : order.Lawful Keyword.all.length)
    (hspelled : Accessibility.WellSpelled header.keywords) (level : Accessibility) :
    ∃ result, header.setAccessibility order level = .ok result ∧ level.Spells result.keywords ∧
      others result.keywords = others header.keywords := by
  obtain ⟨written, hwritten⟩ := hspelled
  obtain ⟨swapped?, hswap⟩ := exists_swapAccessibility? horder header level
  rw [setAccessibility, hswap]
  cases swapped? with
  | some swapped =>
    obtain ⟨read, first, keyword, index, hread, hlevel, -, -, rfl⟩ :=
      exists_of_swapAccessibility?_eq_some hswap
    obtain ⟨hspells, hothers⟩ := hwritten.set_first hread hlevel
    rw [← keywords_swapAt] at hspells hothers
    exact ⟨_, rfl, hspells, hothers⟩
  | none =>
    have hremoved := keywords_removeAccessibility hwritten
    obtain ⟨result, hresult, hvisible, hothers⟩ :=
      exists_insertKeywords_of_level horder level header.removeAccessibility
    rw [hremoved, Accessibility.filter_others, List.append_nil] at hvisible
    rw [hremoved, Accessibility.others_others] at hothers
    exact ⟨result, hresult, hvisible, hothers⟩

theorem setAccessibility_notApplicable (hwritten : header.accessibility = .notApplicable) :
    header.setAccessibility order .notApplicable = .ok header := by
  have hread := Accessibility.read?_eq_none_of_ofKeywords hwritten
  simp only [setAccessibility, swapAccessibility?, removeAccessibility, hread]
  rfl

end Header

namespace Site

variable {order : Ranking Keyword} {site : Site} {level : Accessibility}

/-- A written level holds wherever the declaration stands. -/
theorem accessibility_of_written (h : site.declaration.header.accessibility ≠ .notApplicable) :
    site.accessibility = site.declaration.header.accessibility := by
  unfold accessibility
  cases site.enclosing <;> simp only [Accessibility.effective, Accessibility.resolve, if_pos h]

/-- A level that is there is not written again. -/
theorem changeAccessibility_of_present (hkind : site.kind.hasModifiers = true)
    (hlevel : level = site.accessibility ∨ level = site.declaration.header.accessibility) :
    site.changeAccessibility order level = .ok site.declaration := by
  refine Declaration.editHeader_eq_ok_iff.2 ⟨hkind, site.declaration.header, ?_,
    site.declaration.eta.symm⟩
  by_cases heffective : site.accessibility = level
  · rw [if_pos heffective]
  · rw [if_neg heffective]
    have hwritten : level = site.declaration.header.accessibility :=
      hlevel.resolve_left fun h => heffective h.symm
    have hnone : site.declaration.header.accessibility = .notApplicable := by
      by_contra hne
      exact heffective ((accessibility_of_written hne).trans hwritten.symm)
    rw [hwritten, hnone]
    exact Header.setAccessibility_notApplicable hnone

/-- **A change does what it says, and only once.** Where the modifiers spell a level, a level that
is there already is not written again. Any other is spelled afterwards, with all other keywords in
their old order, and is read back, alone and in its place. The next change to it changes nothing. -/
theorem exists_changeAccessibility (horder : order.Lawful Keyword.all.length)
    (hkind : site.kind.hasModifiers = true)
    (hspelled : Accessibility.WellSpelled site.declaration.header.keywords)
    (level : Accessibility) :
    ∃ result, site.changeAccessibility order level = .ok result ∧
      (level = site.accessibility ∨ level = site.declaration.header.accessibility →
        result = site.declaration) ∧
      (level ≠ site.accessibility → level ≠ site.declaration.header.accessibility →
        level.Spells result.header.keywords ∧
        Accessibility.others result.header.keywords =
          Accessibility.others site.declaration.header.keywords ∧
        result.header.accessibility = level ∧
        (level ≠ .notApplicable → Site.accessibility ⟨result, site.enclosing⟩ = level)) ∧
      Site.changeAccessibility order level ⟨result, site.enclosing⟩ = .ok result := by
  by_cases hpresent : level = site.accessibility ∨ level = site.declaration.header.accessibility
  · have hresult : site.changeAccessibility order level = .ok site.declaration :=
      changeAccessibility_of_present hkind hpresent
    exact ⟨site.declaration, hresult, fun _ => rfl,
      fun heffective hwritten => absurd hpresent (not_or.2 ⟨heffective, hwritten⟩), hresult⟩
  · obtain ⟨header, hheader, hspells, hothers⟩ :=
      Header.exists_setAccessibility horder hspelled level
    have hread : header.accessibility = level := hspells.ofKeywords_eq
    have hresult : site.changeAccessibility order level =
        .ok { site.declaration with header } := by
      refine Declaration.editHeader_eq_ok_iff.2 ⟨hkind, header, ?_, rfl⟩
      rw [if_neg fun h => hpresent (.inl h.symm)]
      exact hheader
    refine ⟨_, hresult, fun h => absurd h hpresent, fun _ _ => ⟨hspells, hothers, hread, ?_⟩, ?_⟩
    · intro hlevel
      exact (accessibility_of_written fun h => hlevel (hread.symm.trans h)).trans hread
    · exact changeAccessibility_of_present hkind (.inr hread.symm)

/-- A pair that stands apart and in the other order is read, taken away and replaced. -/
theorem changeAccessibility_of_scattered_pair :
    ∃ result, Site.changeAccessibility Keyword.defaultOrder .privateAccess
        ⟨⟨.method, ⟨[.spaced .internalKw, .spaced .staticKw, .spaced .protectedKw],
          some (.plain "void"), none, some (.plain "f")⟩, [], []⟩, []⟩ = .ok result ∧
      result.header.accessibility = .privateAccess ∧
      Accessibility.others result.header.keywords = [.staticKw] ∧
      Site.changeAccessibility Keyword.defaultOrder .privateAccess ⟨result, []⟩ = .ok result := by
  let site : Site := ⟨⟨.method, ⟨[.spaced .internalKw, .spaced .staticKw, .spaced .protectedKw],
    some (.plain "void"), none, some (.plain "f")⟩, [], []⟩, []⟩
  have hspelled : Accessibility.WellSpelled site.declaration.header.keywords :=
    Accessibility.wellSpelled_iff.2 (.inr (.inr (.inr (.swap ..))))
  obtain ⟨result, hresult, -, hchanged, hagain⟩ := @exists_changeAccessibility _ site
    Keyword.lawful_defaultOrder rfl hspelled .privateAccess
  obtain ⟨-, hothers, hread, -⟩ := hchanged (by decide) (by decide)
  exact ⟨result, hresult, hread, hothers, hagain⟩

end Site

end DeclEdit
