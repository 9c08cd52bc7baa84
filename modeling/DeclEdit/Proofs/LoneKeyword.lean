import DeclEdit.Proofs.LevelChange

/-!
# A lone visibility keyword changes where it stands

In the usual order the four visibility keywords have ranks next to each other. So on sorted
modifiers with one of them, the order has the same place for every other one, whatever stands around
it: what ranks before one of them ranks before all, and what ranks behind one of them ranks behind
all. A change to another level of one keyword is therefore always a swap, and nothing but that
keyword changes.
-/

namespace DeclEdit

variable {order : Ranking Keyword}

/-- A keyword of another sort that ranks behind one of the visibility keywords ranks behind all. -/
def Ranking.KeepsVisibilityTogether (order : Ranking Keyword) : Prop :=
  ∀ low high other : Keyword, low.isVisibility = true → high.isVisibility = true →
    other.isVisibility = false → order.rank low < order.rank other →
      order.rank high < order.rank other

theorem Keyword.keepsVisibilityTogether_defaultOrder :
    defaultOrder.KeepsVisibilityTogether := by
  have hvisible : ∀ keyword : Keyword, keyword.isVisibility = true →
      1 ≤ defaultOrder.rank keyword ∧ defaultOrder.rank keyword ≤ 4 := by
    intro keyword
    cases keyword <;> decide
  have hothers : ∀ keyword : Keyword, keyword.isVisibility = false →
      defaultOrder.rank keyword < 1 ∨ 4 < defaultOrder.rank keyword := by
    intro keyword
    cases keyword <;> decide
  intro low high other hlow hhigh hother hlt
  have hlow := hvisible low hlow
  have hhigh := hvisible high hhigh
  have hother := hothers other hother
  omega

/-! ### The place of another visibility keyword -/

section Place

variable {before after : List Keyword} {old new : Keyword}
  (horder : order.Lawful Keyword.all.length) (htogether : order.KeepsVisibilityTogether)
  (hsorted : order.isSorted (before ++ old :: after) = true)
  (hold : old.isVisibility = true) (hnew : new.isVisibility = true)

include htogether hsorted hold hnew

theorem rank_lt_of_mem_before {other : Keyword} (hmem : other ∈ before)
    (hother : other.isVisibility = false) : order.rank other < order.rank new + 1 := by
  have hle : order.rank other ≤ order.rank old :=
    (List.pairwise_append.1 (Ranking.isSorted_eq_true_iff.1 hsorted)).2.2 other hmem old
      List.mem_cons_self
  by_contra hbehind
  have hlt := htogether new old other hnew hold hother (by omega)
  omega

include horder

theorem le_rank_of_mem_after {other : Keyword} (hmem : other ∈ after)
    (hother : other.isVisibility = false) : order.rank new + 1 ≤ order.rank other := by
  have hle : order.rank old ≤ order.rank other :=
    List.rel_of_pairwise_cons
      (List.pairwise_append.1 (Ranking.isSorted_eq_true_iff.1 hsorted)).2.1 hmem
  have hne : order.rank old ≠ order.rank other := by
    intro heq
    rw [← horder.rank_injective heq, hold] at hother
    cases hother
  exact htogether old new other hold hnew hother (Nat.lt_of_le_of_ne hle hne)

/-- The order puts another visibility keyword right before the old one or right behind it. -/
theorem exists_insertIndex_of_lone (hbefore : ∀ other ∈ before, other.isVisibility = false)
    (hafter : ∀ other ∈ after, other.isVisibility = false) :
    ∃ index, order.insertIndex (before ++ old :: after) new = .ok index ∧
      (index = before.length ∨ index = before.length + 1) := by
  obtain ⟨index, hindex, hplace⟩ := horder.exists_insertIndex (before ++ old :: after) new
  have hcount := hplace.eq_countP (Ranking.isSorted_eq_true_iff.1 hsorted)
  have hfront : before.countP (fun other => decide (order.rank other < order.rank new + 1)) =
      before.length := by
    refine List.countP_eq_length.2 fun other hmem => decide_eq_true ?_
    exact rank_lt_of_mem_before htogether hsorted hold hnew hmem (hbefore other hmem)
  have hback : after.countP (fun other => decide (order.rank other < order.rank new + 1)) = 0 := by
    refine List.countP_eq_zero.2 fun other hmem => ?_
    simpa using le_rank_of_mem_after horder htogether hsorted hold hnew hmem (hafter other hmem)
  rw [List.countP_append, List.countP_cons, hfront, hback] at hcount
  refine ⟨index, hindex, ?_⟩
  split at hcount
  · exact .inr (by omega)
  · exact .inl (by omega)

end Place

/-! ### The swap -/

namespace Accessibility

theorem iterate_shift (level : Accessibility) (count : Nat) :
    Reading.shift^[count] ⟨level, 0, none⟩ = ⟨level, count, none⟩ := by
  induction count with
  | zero => rfl
  | succ count ih =>
    rw [Function.iterate_succ_apply', ih]
    rfl

/-- A lone visibility keyword is read as the level that it spells. -/
theorem exists_read?_of_lone {before after : List Keyword} {keyword : Keyword}
    (hbefore : ∀ other ∈ before, other.isVisibility = false)
    (hafter : ∀ other ∈ after, other.isVisibility = false)
    (hkeyword : keyword.isVisibility = true) :
    ∃ level : Accessibility, level.keywords = [keyword] ∧
      read? (before ++ keyword :: after) = some ⟨level, before.length, none⟩ := by
  have halone : ∀ partner : Keyword, partner.isVisibility = true →
      after.findIdx? (fun other => decide (other = partner)) = none := by
    intro partner hpartner
    refine List.findIdx?_eq_none_iff.2 fun other hother => decide_eq_false ?_
    rintro rfl
    rw [hafter other hother] at hpartner
    cases hpartner
  have hfrom : ∃ level : Accessibility, level.keywords = [keyword] ∧
      readFrom? keyword after = some ⟨level, 0, none⟩ := by
    cases keyword <;> simp only [Keyword.isVisibility, Bool.false_eq_true] at hkeyword
    case publicKw => exact ⟨publicAccess, rfl, rfl⟩
    case privateKw => exact ⟨privateAccess, rfl, by simp [readFrom?, halone .protectedKw rfl]⟩
    case protectedKw =>
      exact ⟨protectedAccess, rfl,
        by simp [readFrom?, halone .internalKw rfl, halone .privateKw rfl]⟩
    case internalKw => exact ⟨internalAccess, rfl, by simp [readFrom?, halone .protectedKw rfl]⟩
  obtain ⟨level, hlevel, hreading⟩ := hfrom
  exact ⟨level, hlevel, by rw [read?_append hbefore hreading, iterate_shift]⟩

end Accessibility

theorem modify_length_append {α : Type} (before after : List α) (item : α) (change : α → α) :
    (before ++ item :: after).modify before.length change = before ++ change item :: after := by
  rw [List.modify_eq_take_cons_drop (by simp)]
  simp

section Swap

variable {header : Header} {level : Accessibility} {before after : List Modifier}
  {modifier : Modifier} {keyword : Keyword}

/-- Under an order that keeps the visibility keywords together, a level of one keyword takes the
place of a lone one without any removal or insertion. -/
theorem Header.setAccessibility_of_lone (horder : order.Lawful Keyword.all.length)
    (htogether : order.KeepsVisibilityTogether)
    (hmodifiers : header.modifiers = before ++ modifier :: after)
    (hvisible : modifier.keyword.isVisibility = true)
    (hbefore : ∀ other ∈ before, other.keyword.isVisibility = false)
    (hafter : ∀ other ∈ after, other.keyword.isVisibility = false)
    (hsorted : order.isSorted header.keywords = true) (hlevel : level.keywords = [keyword]) :
    header.setAccessibility order level =
      .ok { header with modifiers := before ++ { modifier with keyword } :: after } := by
  have hkeywords : header.keywords =
      before.map (·.keyword) ++ modifier.keyword :: after.map (·.keyword) := by
    rw [Header.keywords, hmodifiers, List.map_append, List.map_cons]
  have hfront : ∀ other ∈ before.map (·.keyword), other.isVisibility = false :=
    List.forall_mem_map.2 hbefore
  have hback : ∀ other ∈ after.map (·.keyword), other.isVisibility = false :=
    List.forall_mem_map.2 hafter
  have hnew : keyword.isVisibility = true :=
    Accessibility.isVisibility_of_mem_keywords (hlevel ▸ List.mem_singleton_self keyword)
  obtain ⟨written, -, hread⟩ := Accessibility.exists_read?_of_lone hfront hback hvisible
  obtain ⟨index, hindex, hplace⟩ := exists_insertIndex_of_lone horder htogether
    (hkeywords ▸ hsorted) hvisible hnew hfront hback
  rw [← hkeywords, List.length_map] at hread
  rw [← hkeywords] at hindex
  rw [List.length_map] at hplace
  have hswap : header.swapAccessibility? order level =
      .ok (some (header.swapAt before.length keyword)) := by
    simp only [swapAccessibility?, hread, hlevel]
    exact bind_eq_ok_iff.2 ⟨index, hindex, if_pos hplace⟩
  have hswapped : header.swapAt before.length keyword =
      { header with modifiers := before ++ { modifier with keyword } :: after } := by
    rw [swapAt, hmodifiers, modify_length_append]
  rw [setAccessibility, hswap, ← hswapped]
  rfl

/-- **Nothing but the keyword changes.** Where the modifiers are sorted in the usual order and one
of them speaks of visibility, a change to another level of one keyword puts that keyword in the
place of the old one. The trivia around it, all other modifiers and everything else of the
declaration are as before. -/
theorem Site.changeAccessibility_of_lone {site : Site} (hkind : site.kind.hasModifiers = true)
    (hmodifiers : site.declaration.header.modifiers = before ++ modifier :: after)
    (hvisible : modifier.keyword.isVisibility = true)
    (hbefore : ∀ other ∈ before, other.keyword.isVisibility = false)
    (hafter : ∀ other ∈ after, other.keyword.isVisibility = false)
    (hsorted : Keyword.defaultOrder.isSorted site.declaration.header.keywords = true)
    (hlevel : level.keywords = [keyword]) (hother : level ≠ site.declaration.header.accessibility) :
    site.changeAccessibility Keyword.defaultOrder level =
      .ok { site.declaration with
        header := { site.declaration.header with
          modifiers := before ++ { modifier with keyword } :: after } } := by
  have hwritten : site.declaration.header.accessibility ≠ .notApplicable := by
    intro hnone
    have hinvisible := Accessibility.read?_eq_none_iff.1
      (Accessibility.read?_eq_none_of_ofKeywords hnone) modifier.keyword
      (List.mem_map_of_mem (hmodifiers ▸ List.mem_append_cons_self))
    rw [hvisible] at hinvisible
    cases hinvisible
  have heffective : site.accessibility ≠ level := by
    rw [accessibility_of_written hwritten]
    exact hother.symm
  refine Declaration.editHeader_eq_ok_iff.2 ⟨hkind, _, ?_, rfl⟩
  rw [if_neg heffective]
  exact Header.setAccessibility_of_lone Keyword.lawful_defaultOrder
    Keyword.keepsVisibilityTogether_defaultOrder hmodifiers hvisible hbefore hafter hsorted hlevel

/-- The comments around the keyword stay, also where a keyword behind it is written twice. -/
theorem Site.changeAccessibility_of_lone_commented :
    Site.changeAccessibility Keyword.defaultOrder .internalAccess
        ⟨⟨.method, ⟨[.spaced .newKw,
              ⟨.publicKw, [.blockComment "/* api */"], [.lineComment "// keep", .endOfLine "\n"]⟩,
              .spaced .staticKw, .spaced .staticKw],
            some (.plain "void"), none, some (.plain "f")⟩, [], []⟩, []⟩ =
      .ok ⟨.method, ⟨[.spaced .newKw,
            ⟨.internalKw, [.blockComment "/* api */"], [.lineComment "// keep", .endOfLine "\n"]⟩,
            .spaced .staticKw, .spaced .staticKw],
          some (.plain "void"), none, some (.plain "f")⟩, [], []⟩ := by
  let written : Modifier :=
    ⟨.publicKw, [.blockComment "/* api */"], [.lineComment "// keep", .endOfLine "\n"]⟩
  let method : Declaration :=
    ⟨.method, ⟨[.spaced .newKw, written, .spaced .staticKw, .spaced .staticKw],
      some (.plain "void"), none, some (.plain "f")⟩, [], []⟩
  have hmodifiers : method.header.modifiers =
      [.spaced .newKw] ++ written :: [.spaced .staticKw, .spaced .staticKw] := rfl
  exact @changeAccessibility_of_lone .internalAccess _ _ _ .internalKw ⟨method, []⟩ rfl hmodifiers
    rfl (by decide) (by decide) (by decide) rfl (by decide)

end Swap

end DeclEdit
