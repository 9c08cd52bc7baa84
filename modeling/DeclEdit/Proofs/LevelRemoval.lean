import DeclEdit.Proofs.HeaderLayout
import DeclEdit.Proofs.LevelReading

/-!
# What goes with a level

The removal of a level takes the keywords that were read, wherever they stand. Each of them is the
first of its kind: nothing in front of the first one speaks of visibility, and the partner is the
first that a search behind it finds. So the removal comes to erasing the first modifier with each
keyword of the level. The level lists its two keywords in one order and the modifiers may have them
in the other, which makes no difference to what is erased.
-/

namespace DeclEdit

namespace Modifier

/-- The modifiers without the first one that has each of the keywords. -/
def eraseFirsts (keywords : List Keyword) (modifiers : List Modifier) : List Modifier :=
  keywords.foldl (fun left keyword => left.eraseP (·.keyword = keyword)) modifiers

theorem eraseFirsts_of_perm {keywords permuted : List Keyword} (h : keywords.Perm permuted)
    (modifiers : List Modifier) :
    eraseFirsts keywords modifiers = eraseFirsts permuted modifiers := by
  have hcomm : RightCommutative fun (left : List Modifier) keyword =>
      left.eraseP (·.keyword = keyword) := by
    refine ⟨fun left first second => ?_⟩
    by_cases hsame : first = second
    · rw [hsame]
    · refine List.eraseP_comm fun modifier _ => ?_
      by_contra hboth
      simp only [decide_eq_true_eq, not_or, not_not] at hboth
      exact hsame (hboth.1.symm.trans hboth.2)
  exact h.foldl_eq modifiers

/-- A modifier is erased if none in front of it has its keyword. -/
theorem eraseFirsts_append_cons {before after : List Modifier} {modifier : Modifier}
    (hbefore : ∀ other ∈ before, other.keyword ≠ modifier.keyword) (rest : List Keyword) :
    eraseFirsts (modifier.keyword :: rest) (before ++ modifier :: after) =
      eraseFirsts rest (before ++ after) := by
  have herase : (before ++ modifier :: after).eraseP (·.keyword = modifier.keyword) =
      before ++ after := by
    rw [List.eraseP_append_right _ (by simpa using hbefore), List.eraseP_cons_of_pos (by simp)]
  rw [eraseFirsts, List.foldl_cons, herase]
  rfl

theorem eraseFirsts_append {before : List Modifier} {keywords : List Keyword}
    (hbefore : ∀ other ∈ before, other.keyword ∉ keywords) (after : List Modifier) :
    eraseFirsts keywords (before ++ after) = before ++ eraseFirsts keywords after := by
  induction keywords generalizing after with
  | nil => rfl
  | cons keyword rest ih =>
    have hfirst : ∀ other ∈ before, other.keyword ≠ keyword := fun other hother heq =>
      hbefore other hother (heq ▸ List.mem_cons_self)
    have herase : (before ++ after).eraseP (·.keyword = keyword) =
        before ++ after.eraseP (·.keyword = keyword) :=
      List.eraseP_append_right _ (by simpa using hfirst)
    rw [eraseFirsts, List.foldl_cons, herase]
    exact ih (fun other hother hmem => hbefore other hother (.tail _ hmem)) _

end Modifier

open Modifier (eraseFirsts)

namespace Accessibility

/-- What a reading found are the first modifiers with the keywords of the level. -/
theorem Reading.Found.eraseFirsts_eq {reading : Reading} {modifiers : List Modifier}
    (h : reading.Found (modifiers.map (·.keyword))) :
    eraseFirsts reading.level.keywords modifiers =
      (reading.second.elim modifiers modifiers.eraseIdx).eraseIdx reading.first := by
  -- Nothing in front of the first keyword speaks of visibility, and both keywords do.
  have hapart : ∀ {before : List Modifier} {keyword : Keyword},
      (∀ other ∈ before.map (·.keyword), other.isVisibility = false) →
      keyword ∈ reading.level.keywords → ∀ other ∈ before, other.keyword ≠ keyword := by
    rintro before _ hbefore hkeyword other hother rfl
    have hinvisible := hbefore _ (List.mem_map_of_mem hother)
    rw [isVisibility_of_mem_keywords hkeyword] at hinvisible
    cases hinvisible
  cases h with
  | single front back keyword hkeywords hbefore hfirst hsecond hlevel =>
    obtain ⟨before, behind, rfl, rfl, hbehind⟩ := List.map_eq_append_iff.1 hkeywords
    obtain ⟨modifier, after, rfl, rfl, rfl⟩ := List.map_eq_cons_iff.1 hbehind
    have hmodifier := hapart hbefore (hlevel ▸ List.mem_singleton_self modifier.keyword)
    rw [hlevel, Modifier.eraseFirsts_append_cons hmodifier, hfirst, hsecond, List.length_map]
    exact (eraseIdx_length_append_cons before after modifier).symm
  | pair front middle back keyword partner hkeywords hbefore hbetween hfirst hsecond hlevel =>
    obtain ⟨before, behind, rfl, rfl, hbehind⟩ := List.map_eq_append_iff.1 hkeywords
    obtain ⟨modifier, others, rfl, rfl, hothers⟩ := List.map_eq_cons_iff.1 hbehind
    obtain ⟨between, rest, rfl, rfl, hrest⟩ := List.map_eq_append_iff.1 hothers
    obtain ⟨second, after, rfl, rfl, rfl⟩ := List.map_eq_cons_iff.1 hrest
    have hmodifier := hapart hbefore (hlevel.subset List.mem_cons_self)
    have hpartner : ∀ other ∈ before ++ between, other.keyword ≠ second.keyword := by
      intro other hother
      rcases List.mem_append.1 hother with hother | hother
      · exact hapart hbefore (hlevel.subset (.tail _ List.mem_cons_self)) other hother
      · exact fun heq => hbetween (heq ▸ List.mem_map_of_mem hother)
    rw [← Modifier.eraseFirsts_of_perm hlevel, Modifier.eraseFirsts_append_cons hmodifier,
      ← List.append_assoc, Modifier.eraseFirsts_append_cons hpartner, hfirst, hsecond,
      List.length_map, List.length_map, List.append_assoc]
    exact (eraseIdx_eraseIdx_append_cons before between after modifier second).symm

theorem Reading.Found.exists_find? {reading : Reading} {keywords : List Keyword}
    (h : reading.Found keywords) :
    ∃ keyword ∈ reading.level.keywords, keywords.find? Keyword.isVisibility = some keyword := by
  have hfind : ∀ {before behind : List Keyword} {keyword : Keyword},
      (∀ other ∈ before, other.isVisibility = false) → keyword ∈ reading.level.keywords →
      (before ++ keyword :: behind).find? Keyword.isVisibility = some keyword := by
    intro before behind keyword hbefore hkeyword
    refine List.find?_eq_some_iff_append.2
      ⟨isVisibility_of_mem_keywords hkeyword, before, behind, rfl, ?_⟩
    simpa using hbefore
  cases h with
  | single before after keyword hkeywords hbefore _ _ hlevel =>
    have hmem : keyword ∈ reading.level.keywords := hlevel ▸ List.mem_singleton_self keyword
    exact ⟨keyword, hmem, hkeywords ▸ hfind hbefore hmem⟩
  | pair before between after keyword partner hkeywords hbefore _ _ _ hlevel =>
    have hmem : keyword ∈ reading.level.keywords := hlevel.subset List.mem_cons_self
    exact ⟨keyword, hmem, hkeywords ▸ hfind hbefore hmem⟩

end Accessibility

namespace Header

open Accessibility (WellSpelled)

theorem keywords_bare (header : Header) :
    header.bare.modifiers.map (·.keyword) = header.keywords := by
  simp [bare, keywords, Modifier.withoutLeading]

theorem bare_removeAccessibility (header : Header) :
    header.removeAccessibility.bare =
      { header.bare with
        modifiers := eraseFirsts header.accessibility.keywords header.bare.modifiers } := by
  unfold removeAccessibility accessibility
  cases hread : Accessibility.read? header.keywords with
  | none =>
    rw [Accessibility.ofKeywords, hread]
    rfl
  | some reading =>
    have hfound := Accessibility.found_of_read? hread
    rw [← keywords_bare] at hfound
    rw [← Accessibility.level_eq_ofKeywords hread, hfound.eraseFirsts_eq]
    obtain ⟨level, first, _ | second⟩ := reading
    · exact bare_removeAt ..
    · simp only [bare_removeAt, Option.elim]

/-- The keywords of the level were there. -/
theorem keywords_perm_removeAccessibility (header : Header) :
    header.keywords.Perm (header.accessibility.keywords ++ header.removeAccessibility.keywords) := by
  cases hread : Accessibility.read? header.keywords with
  | none =>
    simp only [accessibility, Accessibility.ofKeywords, removeAccessibility, hread]
    exact .refl _
  | some reading =>
    rw [accessibility, ← Accessibility.level_eq_ofKeywords hread]
    obtain ⟨level, first, second⟩ := reading
    cases Accessibility.found_of_read? hread with
    | single before after keyword hkeywords _ hfirst hsecond hlevel =>
      obtain rfl : first = before.length := hfirst
      obtain rfl : second = none := hsecond
      obtain hlevel : level.keywords = [keyword] := hlevel
      rw [keywords_removeAccessibility_of_single hread hkeywords, hkeywords, hlevel]
      exact List.perm_middle
    | pair before between after keyword partner hkeywords _ _ hfirst hsecond hlevel =>
      obtain rfl : first = before.length := hfirst
      obtain rfl : second = some (before.length + 1 + between.length) := hsecond
      rw [keywords_removeAccessibility_of_pair hread hkeywords, hkeywords]
      calc
        (before ++ keyword :: (between ++ partner :: after)).Perm
            (keyword :: (before ++ (between ++ partner :: after))) := List.perm_middle
        List.Perm _ (keyword :: (before ++ partner :: (between ++ after))) :=
          (List.perm_middle.append_left before).cons keyword
        List.Perm _ (keyword :: partner :: (before ++ (between ++ after))) :=
          List.perm_middle.cons keyword
        List.Perm _ (level.keywords ++ (before ++ (between ++ after))) :=
          hlevel.append_right (before ++ (between ++ after))

theorem mem_keywords_accessibility {header : Header} {keyword : Keyword}
    (h : header.keywords.find? Keyword.isVisibility = some keyword) :
    keyword ∈ header.accessibility.keywords := by
  cases hread : Accessibility.read? header.keywords with
  | none =>
    have hinvisible := Accessibility.read?_eq_none_iff.1 hread keyword (List.mem_of_find?_eq_some h)
    rw [List.find?_some h] at hinvisible
    cases hinvisible
  | some reading =>
    obtain ⟨first, hmem, hfirst⟩ := (Accessibility.found_of_read? hread).exists_find?
    obtain rfl : first = keyword := Option.some.inj (hfirst.symm.trans h)
    rwa [accessibility, ← Accessibility.level_eq_ofKeywords hread]

/-- The second header is the first one without the level that is written there. -/
structure LosesLevel (header result : Header) : Prop where
  /-- Each keyword of the level goes once, and no other keyword goes. -/
  perm : header.keywords.Perm (header.accessibility.keywords ++ result.keywords)
  /-- Of equal keywords it is the first one. The others keep their order and what is written behind
  them. -/
  bare_eq : result.bare =
    { header.bare with
      modifiers := eraseFirsts header.accessibility.keywords header.bare.modifiers }
  /-- The first keyword that speaks of visibility goes, and nothing in front of it does. -/
  first_goes : ∀ before modifier after, header.bare.modifiers = before ++ modifier :: after →
    (∀ other ∈ before, other.keyword.isVisibility = false) →
    modifier.keyword.isVisibility = true →
    modifier.keyword ∈ header.accessibility.keywords ∧ result.bare.modifiers =
      before ++ eraseFirsts (header.accessibility.keywords.erase modifier.keyword) after

theorem losesLevel_removeAccessibility (header : Header) :
    header.LosesLevel header.removeAccessibility where
  perm := keywords_perm_removeAccessibility header
  bare_eq := bare_removeAccessibility header
  first_goes before modifier after hmodifiers hbefore hvisible := by
    have hmem : modifier.keyword ∈ header.accessibility.keywords := by
      refine mem_keywords_accessibility (List.find?_eq_some_iff_append.2 ⟨hvisible,
        before.map (·.keyword), after.map (·.keyword), ?_, ?_⟩)
      · rw [← keywords_bare, hmodifiers, List.map_append, List.map_cons]
      · simpa using hbefore
    have hapart : ∀ other ∈ before, ∀ keyword : Keyword, keyword.isVisibility = true →
        other.keyword ≠ keyword := by
      rintro other hother _ hkeyword rfl
      rw [hbefore other hother] at hkeyword
      cases hkeyword
    have hrest : ∀ other ∈ before,
        other.keyword ∉ header.accessibility.keywords.erase modifier.keyword := by
      intro other hother hin
      have hkeyword := Accessibility.isVisibility_of_mem_keywords (List.mem_of_mem_erase hin)
      exact hapart other hother _ hkeyword rfl
    refine ⟨hmem, ?_⟩
    rw [bare_removeAccessibility, hmodifiers,
      Modifier.eraseFirsts_of_perm (List.perm_cons_erase hmem),
      Modifier.eraseFirsts_append_cons fun other hother => hapart other hother _ hvisible,
      Modifier.eraseFirsts_append hrest]

/-- Where the keywords spell a level, there is none left to read. -/
theorem accessibility_removeAccessibility {header : Header} (h : WellSpelled header.keywords) :
    header.removeAccessibility.accessibility = .notApplicable := by
  obtain ⟨level, hlevel⟩ := h
  have hnone : Accessibility.notApplicable.Spells header.removeAccessibility.keywords := by
    rw [keywords_removeAccessibility hlevel]
    exact .of_eq (Accessibility.filter_others header.keywords)
  exact hnone.ofKeywords_eq

end Header

namespace ModifierEdit

open Accessibility (WellSpelled)

/-- **What was read goes, and nothing else.** Whatever the visibility keywords are and wherever they
stand, the removal of the level takes one of each keyword that spells it, the first visibility
keyword among them. All other modifiers stay in their order, with what is written behind them. Where
the visibility keywords spell a level, no level is read afterwards. -/
theorem exists_removeAccessibility {site : Site} (hkind : site.kind.hasModifiers = true)
    (order : Ranking Keyword) :
    ∃ header, removeAccessibility.apply order site = .ok { site.declaration with header } ∧
      site.declaration.header.LosesLevel header ∧
      (WellSpelled site.declaration.header.keywords → header.accessibility = .notApplicable) := by
  refine ⟨site.declaration.header.removeAccessibility, ?_,
    Header.losesLevel_removeAccessibility _, Header.accessibility_removeAccessibility⟩
  rw [apply, Declaration.editHeader_eq_ok_iff]
  exact ⟨hkind, _, rfl, rfl⟩

/-- Of four visibility keywords that contradict each other two go. A pair that stands apart goes as
a whole. -/
theorem exists_removeAccessibility_contradictory :
    ∃ contradictory rest apart single : Declaration,
      contradictory.header.keywords =
        [.staticKw, .protectedKw, .privateKw, .internalKw, .privateKw] ∧
      contradictory.header.accessibility = .protectedOrInternal ∧
      removeAccessibility.apply Keyword.defaultOrder ⟨contradictory, []⟩ = .ok rest ∧
      contradictory.header.LosesLevel rest.header ∧
      rest.header.keywords = [.staticKw, .privateKw, .privateKw] ∧
      apart.header.keywords = [.internalKw, .staticKw, .protectedKw] ∧
      removeAccessibility.apply Keyword.defaultOrder ⟨apart, []⟩ = .ok single ∧
      single.header.keywords = [.staticKw] ∧ single.header.accessibility = .notApplicable := by
  let field (keywords : List Keyword) : Declaration :=
    ⟨.field, ⟨keywords.map .spaced, some (.plain "int"), none, some (.plain "x")⟩, [], []⟩
  let contradictory := field [.staticKw, .protectedKw, .privateKw, .internalKw, .privateKw]
  let apart := field [.internalKw, .staticKw, .protectedKw]
  have hspelled : WellSpelled apart.header.keywords :=
    Accessibility.wellSpelled_iff.2 (.inr (.inr (.inr (.swap ..))))
  obtain ⟨rest, hrest, hloses, -⟩ :=
    @exists_removeAccessibility ⟨contradictory, []⟩ rfl Keyword.defaultOrder
  obtain ⟨single, hsingle, -, hread⟩ :=
    @exists_removeAccessibility ⟨apart, []⟩ rfl Keyword.defaultOrder
  refine ⟨contradictory, _, apart, _, rfl, rfl, hrest, hloses, ?_, rfl, hsingle, ?_, hread hspelled⟩
  · obtain rfl := congrArg (·.header) (Except.ok.inj hrest)
    rfl
  · obtain rfl := congrArg (·.header) (Except.ok.inj hsingle)
    rfl

end ModifierEdit

end DeclEdit
