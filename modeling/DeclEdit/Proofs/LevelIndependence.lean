import DeclEdit.Proofs.InsertionOrder

/-!
# The level does not depend on the layout of the modifiers

The level is read from the visibility keywords as they follow each other, whatever stands between
them. Modifiers that do not speak of visibility can come and go without changing it. Where the
visibility keywords spell a level, not even their order matters, so the modifiers may be sorted by
any order of the keywords.
-/

namespace DeclEdit

open Accessibility (WellSpelled)

theorem Accessibility.ofKeywords_eq_of_filter_eq {first second : List Keyword}
    (h : first.filter Keyword.isVisibility = second.filter Keyword.isVisibility) :
    ofKeywords first = ofKeywords second := by
  rw [← ofKeywords_filter_isVisibility first, h, ofKeywords_filter_isVisibility]

theorem Accessibility.WellSpelled.ofKeywords_perm {keywords permuted : List Keyword}
    (h : WellSpelled keywords) (hperm : permuted.Perm keywords) :
    ofKeywords permuted = ofKeywords keywords := by
  obtain ⟨level, hlevel⟩ := h
  rw [hlevel.ofKeywords_eq, (hlevel.of_perm hperm).ofKeywords_eq]

section Lists

variable {α : Type} {test : α → Bool} {items : List α} {x : α} {index : Nat}

theorem filter_eraseIdx_of_neg (hindex : items[index]? = some x) (hx : test x = false) :
    (items.eraseIdx index).filter test = items.filter test := by
  obtain ⟨hlt, rfl⟩ := List.getElem?_eq_some_iff.1 hindex
  calc
    (items.eraseIdx index).filter test
      = (items.take index ++ items.drop (index + 1)).filter test := by
        rw [List.eraseIdx_eq_take_drop_succ]
    _ = (items.take index ++ items[index] :: items.drop (index + 1)).filter test :=
        (filter_append_cons_of_neg hx _ _).symm
    _ = items.filter test := by rw [List.getElem_cons_drop, List.take_append_drop]

theorem filter_erase_of_neg [DecidableEq α] (hx : test x = false) :
    (items.erase x).filter test = items.filter test := by
  by_cases hmem : x ∈ items
  · obtain ⟨before, after, -, hsplit, herase⟩ := List.exists_erase_eq hmem
    rw [herase, hsplit, filter_append_cons_of_neg hx]
  · rw [List.erase_of_not_mem hmem]

end Lists

namespace ModifierEdit

variable {order : Ranking Keyword} {start result : Declaration}
  {edit : ModifierEdit} {site : Site}

/-- The edit puts in or takes out a modifier that does not speak of visibility. -/
inductive SparesVisibility (header : Header) : ModifierEdit → Prop
  | insert {keyword : Keyword} (hkeyword : keyword.isVisibility = false) :
      SparesVisibility header (.insert keyword)
  | insertModifier {modifier : Modifier} (hmodifier : modifier.keyword.isVisibility = false) :
      SparesVisibility header (.insertModifier modifier)
  | remove {keyword : Keyword} (hkeyword : keyword.isVisibility = false) :
      SparesVisibility header (.remove keyword)
  | removeAt {index : Nat} {keyword : Keyword} (hindex : header.keywords[index]? = some keyword)
      (hkeyword : keyword.isVisibility = false) : SparesVisibility header (.removeAt index)

/-- One such edit, under whatever order and wherever the declaration stands. -/
def SparingStep (current result : Declaration) : Prop :=
  ∃ (order : Ranking Keyword) (enclosing : List Declaration) (edit : ModifierEdit),
    edit.SparesVisibility current.header ∧ edit.apply order ⟨current, enclosing⟩ = .ok result

/-- Such an edit leaves the visibility keywords as they follow each other. -/
theorem SparesVisibility.filter_eq (h : edit.SparesVisibility site.declaration.header)
    (hresult : edit.apply order site = .ok result) :
    result.header.keywords.filter Keyword.isVisibility =
      site.declaration.header.keywords.filter Keyword.isVisibility := by
  have hinsert : ∀ {modifier : Modifier} {inserted : Header}, modifier.keyword.isVisibility = false →
      site.declaration.header.insert order modifier = .ok inserted →
      inserted.keywords.filter Keyword.isVisibility =
        site.declaration.header.keywords.filter Keyword.isVisibility := by
    intro modifier inserted hmodifier hinserted
    obtain ⟨index, -, rfl⟩ := Header.insert_eq_ok_iff.1 hinserted
    rw [Header.keywords_insertAt, filter_insertIdx_of_neg hmodifier]
  cases h
  all_goals
    simp only [apply] at hresult
    obtain ⟨-, header, hheader, rfl⟩ := Declaration.editHeader_eq_ok_iff.1 hresult
  case insert keyword hkeyword => exact hinsert hkeyword hheader
  case insertModifier modifier hmodifier => exact hinsert hmodifier hheader
  case remove keyword hkeyword =>
    obtain rfl := Except.ok.inj hheader
    rw [Header.keywords_remove, filter_erase_of_neg hkeyword]
  case removeAt index keyword hindex hkeyword =>
    split at hheader
    · obtain rfl := Except.ok.inj hheader
      rw [Header.keywords_removeAt, filter_eraseIdx_of_neg hindex hkeyword]
    · cases hheader

/-- The level survives every history of such edits. -/
theorem accessibility_of_sparingSteps (h : Relation.ReflTransGen SparingStep start result) :
    result.header.accessibility = start.header.accessibility := by
  induction h with
  | refl => rfl
  | tail _ hstep ih =>
    obtain ⟨order, enclosing, edit, hspares, hresult⟩ := hstep
    exact (Accessibility.ofKeywords_eq_of_filter_eq (hspares.filter_eq hresult)).trans ih

/-- **The level does not depend on the layout.** Lists with the same visibility keywords, one behind
the other, have the same level, so modifiers of another sort come and go without changing it. If the
visibility keywords spell a level, every permutation of the list has it, and so has the list sorted
by any order. -/
theorem accessibility_independent_of_layout :
    (∀ first second : List Keyword,
      first.filter Keyword.isVisibility = second.filter Keyword.isVisibility →
      Accessibility.ofKeywords first = Accessibility.ofKeywords second) ∧
    (∀ start result : Declaration, Relation.ReflTransGen SparingStep start result →
      result.header.accessibility = start.header.accessibility) ∧
    (∀ keywords permuted : List Keyword, WellSpelled keywords → permuted.Perm keywords →
      Accessibility.ofKeywords permuted = Accessibility.ofKeywords keywords) ∧
    ∀ (order : Ranking Keyword) (site : Site), site.kind.hasModifiers = true →
      WellSpelled site.declaration.header.keywords →
      ∃ header, reorder.apply order site = .ok { site.declaration with header } ∧
        header.accessibility = site.declaration.header.accessibility := by
  refine ⟨fun _ _ => Accessibility.ofKeywords_eq_of_filter_eq,
    fun _ _ => accessibility_of_sparingSteps, fun _ _ => WellSpelled.ofKeywords_perm, ?_⟩
  intro order site hkind hspelled
  refine ⟨site.declaration.header.reorder order, apply_reorder hkind, ?_⟩
  exact hspelled.ofKeywords_perm (Header.keywords_reorder_perm order _)

/-- Two keywords that contradict each other, read with and without a third between them, and a pair
that stands apart, read before and after sorting. -/
theorem accessibility_independent_of_layout_contradictory :
    ∃ contradictory parted apart sorted : Declaration,
      contradictory.header.keywords = [.publicKw, .privateKw] ∧
      parted.header.keywords = [.publicKw, .staticKw, .privateKw] ∧
      (removeAt 1).apply Keyword.defaultOrder ⟨parted, []⟩ = .ok contradictory ∧
      contradictory.header.accessibility = parted.header.accessibility ∧
      apart.header.keywords = [.internalKw, .staticKw, .protectedKw] ∧
      reorder.apply Keyword.defaultOrder ⟨apart, []⟩ = .ok sorted ∧
      sorted.header.accessibility = .protectedOrInternal ∧
      Accessibility.ofKeywords [.staticKw, .protectedKw, .internalKw] = .protectedOrInternal ∧
      Accessibility.ofKeywords [.publicKw, .constKw, .privateKw] = .publicAccess := by
  let field (keywords : List Keyword) : Declaration :=
    ⟨.field, ⟨keywords.map .spaced, some (.plain "int"), none, some (.plain "x")⟩, [], []⟩
  let contradictory := field [.publicKw, .privateKw]
  let parted := field [.publicKw, .staticKw, .privateKw]
  let apart := field [.internalKw, .staticKw, .protectedKw]
  obtain ⟨hlist, hsteps, hperm, hreorder⟩ := accessibility_independent_of_layout
  have hstep : SparingStep parted contradictory :=
    ⟨Keyword.defaultOrder, [], removeAt 1, .removeAt rfl rfl, rfl⟩
  have hspelled : WellSpelled [.internalKw, .staticKw, .protectedKw] :=
    Accessibility.wellSpelled_iff.2 (.inr (.inr (.inr (.swap ..))))
  obtain ⟨header, hsorted, hlevel⟩ := hreorder Keyword.defaultOrder ⟨apart, []⟩ rfl hspelled
  exact ⟨contradictory, parted, apart, _, rfl, rfl, rfl, hsteps parted contradictory (.single hstep),
    rfl, hsorted, hlevel,
    hperm [.internalKw, .staticKw, .protectedKw] _ hspelled (by decide),
    hlist [.publicKw, .constKw, .privateKw] [.publicKw, .privateKw] rfl⟩

end ModifierEdit

end DeclEdit
