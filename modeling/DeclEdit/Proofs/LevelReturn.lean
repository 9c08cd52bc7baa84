import DeclEdit.Proofs.HeaderLayout
import DeclEdit.Proofs.SortedModifiers
import DeclEdit.Proofs.SwapAgreement

/-!
# A change of accessibility can be taken back

The text of a single-spaced header is made of the layout in front, the modifier keywords with a
space behind each, and what follows the modifiers. A change of accessibility keeps the first and the
last and leaves the header single-spaced. On sorted modifiers it leaves them sorted, so the way back
to the old level leads to the old keywords, whichever of its ways each change takes, and with them
to the old text.
-/

namespace DeclEdit

theorem Modifier.fullText_withoutLeading {modifier : Modifier} (h : modifier.leading.text = "") :
    modifier.withoutLeading.fullText = modifier.fullText := by
  simp [Modifier.fullText, Modifier.withoutLeading, h]

theorem Token.fullText_withoutLeading {token : Token} (h : token.leading.text = "") :
    token.withoutLeading.fullText = token.fullText := by
  simp [Token.fullText, Token.withoutLeading, h]

namespace Header

variable {order : Ranking Keyword} {mayEnter : Modifier → Prop} {header result next : Header}

/-! ### The text of a single-spaced header -/

theorem written_bare (h : ∀ leading ∈ header.leadings, leading.text = "") :
    header.bare.written = header.written := by
  obtain ⟨modifiers, head, explicitInterface, name⟩ := header
  simp only [leadings, List.forall_mem_append, List.forall_mem_map] at h
  obtain ⟨⟨hmodifiers, hhead⟩, hname⟩ := h
  have htexts : (modifiers.map Modifier.withoutLeading).map Modifier.fullText =
      modifiers.map Modifier.fullText := by
    rw [List.map_map]
    exact List.map_congr_left fun modifier hmodifier =>
      Modifier.fullText_withoutLeading (hmodifiers modifier hmodifier)
  simp only [written, bare, htexts]
  cases head <;> cases name <;> simp_all [Token.fullText_withoutLeading]

theorem SingleSpaced.text_eq (h : header.SingleSpaced) (hmodifiers : header.modifiers ≠ []) :
    header.text = header.front.text ++ header.bare.written := by
  obtain ⟨first, rest, hcons⟩ := List.exists_cons_of_ne_nil hmodifiers
  let behind : Header := { header with modifiers := rest }
  have hbehind : behind.bare.written = behind.written := by
    apply written_bare
    have hleading := h.text_leading
    rwa [leadings_eq_cons hcons] at hleading
  have hheader : header = { behind with modifiers := first :: behind.modifiers } := by
    rw [← hcons]
  have hbare : header.bare =
      { behind.bare with modifiers := first.withoutLeading :: behind.bare.modifiers } := by
    rw [hheader]
    rfl
  have hfront : header.front = first.leading := by
    rw [hheader]
    rfl
  calc
    header.text = header.written := text_eq_written header
    _ = first.fullText ++ behind.written := by rw [hheader, written_cons]
    _ = header.front.text ++ (first.withoutLeading.fullText ++ behind.bare.written) := by
      rw [hbehind, hfront]
      simp [Modifier.fullText, Modifier.withoutLeading, String.append_assoc]
    _ = header.front.text ++ header.bare.written := by rw [hbare, written_cons]

/-- Behind each modifier is one space, so without the layout in front only keywords are written. -/
theorem SingleSpaced.written_bare_eq (h : header.SingleSpaced) :
    header.bare.written =
      String.join (header.keywords.map fun keyword => keyword.text ++ " ") ++
        written { header.bare with modifiers := [] } := by
  have htexts : header.bare.modifiers.map Modifier.fullText =
      header.keywords.map fun keyword => keyword.text ++ " " := by
    simp only [bare, keywords, List.map_map]
    apply List.map_congr_left
    intro modifier hmodifier
    simp [Modifier.fullText, Modifier.withoutLeading, h.text_trailing modifier hmodifier]
  simp only [written, htexts, List.map_nil, String.join_nil, String.empty_append,
    String.append_assoc]

/-! ### Headers that differ in their keywords -/

theorem joinable_eq_empty : Joinable (· = "") where
  nothing := rfl
  append := by
    rintro _ _ rfl rfl
    rfl

/-- The second header is single-spaced and has the layout in front from the first one, and what
follows the modifiers there. -/
structure Reworded (header result : Header) : Prop where
  singleSpaced : result.SingleSpaced
  text_front : result.front.text = header.front.text
  behind : ({ result.bare with modifiers := [] } : Header) = { header.bare with modifiers := [] }

theorem Reworded.text_eq (h : Reworded header result) (hheader : header.SingleSpaced)
    (hmodifiers : header.modifiers ≠ []) (hkeywords : result.keywords = header.keywords) :
    result.text = header.text := by
  have hresult : result.modifiers ≠ [] := by
    intro hnil
    apply hmodifiers
    rw [← List.map_eq_nil_iff]
    exact hkeywords.symm.trans (by rw [keywords, hnil]; rfl)
  rw [h.singleSpaced.text_eq hresult, hheader.text_eq hmodifiers, h.text_front,
    h.singleSpaced.written_bare_eq, hheader.written_bare_eq, hkeywords, h.behind]

theorem Reworded.trans (h : Reworded header result) (hnext : Reworded result next) :
    Reworded header next :=
  ⟨hnext.singleSpaced, hnext.text_front.trans h.text_front, hnext.behind.trans h.behind⟩

theorem Reworded.of_move (h : Reworded header result) (hmove : Move order mayEnter result next)
    (hmayEnter : ∀ modifier, mayEnter modifier →
      modifier.leading.text = "" ∧ modifier.trailing.text = " ") : Reworded header next := by
  obtain ⟨hbehind, htrailing, hleading⟩ := h.singleSpaced
  have hlaid : LaidOut (· = "") result.front.text next :=
    hmove.laidOut joinable_eq_empty (fun modifier hmodifier => (hmayEnter modifier hmodifier).1)
      hbehind (laidOut_front joinable_eq_empty hleading)
  obtain ⟨own, rfl, hfront⟩ := hlaid.text_front
  obtain ⟨modifiers, hbare, -⟩ := hmove.exists_bare
  refine ⟨⟨?_, ?_, hlaid.text_leading⟩, ?_, ?_⟩
  · rw [hmove.isSome_firstAfterModifiers?]
    exact hbehind
  · intro modifier hmodifier
    obtain ⟨old, hold | hentering, heq⟩ := hmove.exists_trailing_eq hmodifier
    · rw [heq]
      exact htrailing old hold
    · rw [heq]
      exact (hmayEnter old hentering).2
  · rw [hfront, String.append_empty]
    exact h.text_front
  · rw [hbare]
    exact h.behind

end Header

/-! ### There and back -/

/-- Lists that spell the same level and have the same other keywords have the same keywords. -/
theorem Accessibility.Spells.perm {level : Accessibility} {first second : List Keyword}
    (hfirst : level.Spells first) (hsecond : level.Spells second)
    (hothers : others first = others second) : first.Perm second :=
  calc
    first.Perm (first.filter Keyword.isVisibility ++ others first) :=
      (List.filter_append_perm _ _).symm
    List.Perm _ (second.filter Keyword.isVisibility ++ others second) :=
      (hfirst.trans hsecond.symm).append (.of_eq hothers)
    List.Perm _ second := List.filter_append_perm _ _

namespace Site

open Header (Reworded)
open Accessibility (others Spells)

variable {order : Ranking Keyword} {site : Site} {level : Accessibility} {result : Declaration}

theorem reworded_of_changeAccessibility (hspaced : site.declaration.header.SingleSpaced)
    (hresult : site.changeAccessibility order level = .ok result) :
    Reworded site.declaration.header result.header := by
  refine @ModifierEdit.kept_of_apply order (.changeAccessibility level) site result
    (Reworded site.declaration.header) ?_ hresult ⟨hspaced, rfl, rfl⟩
  intro current next hmove hcurrent
  refine hcurrent.of_move hmove ?_
  rintro modifier (⟨keyword, rfl⟩ | hgiven)
  · exact ⟨rfl, rfl⟩
  · cases hgiven

theorem isSorted_of_changeAccessibility (horder : order.Lawful Keyword.all.length)
    (hsorted : order.isSorted site.declaration.header.keywords = true)
    (hresult : site.changeAccessibility order level = .ok result) :
    order.isSorted result.header.keywords = true :=
  @ModifierEdit.kept_of_apply order (.changeAccessibility level) site result
    (fun header => order.isSorted header.keywords = true)
    (fun _ _ hmove => hmove.isSorted horder) hresult hsorted

theorem exists_changeAccessibility_of_ne (horder : order.Lawful Keyword.all.length)
    (hkind : site.kind.hasModifiers = true)
    (hspelled : Accessibility.WellSpelled site.declaration.header.keywords)
    (hlevel : site.accessibility ≠ level) :
    ∃ header, site.changeAccessibility order level = .ok { site.declaration with header } ∧
      level.Spells header.keywords ∧ others header.keywords =
        others site.declaration.header.keywords := by
  obtain ⟨header, hheader, hspells, hothers⟩ :=
    Header.exists_setAccessibility horder hspelled level
  refine ⟨header, Declaration.editHeader_eq_ok_iff.2 ⟨hkind, header, ?_, rfl⟩, hspells, hothers⟩
  rw [if_neg hlevel]
  exact hheader

/-- The way back leads to the keywords of before, not only to their level. -/
theorem exists_changeAccessibility_twice (horder : order.Lawful Keyword.all.length)
    (hkind : site.kind.hasModifiers = true)
    (hspelled : Accessibility.WellSpelled site.declaration.header.keywords)
    (hwritten : site.declaration.header.accessibility ≠ .notApplicable)
    (hlevel : level ≠ .notApplicable) :
    ∃ changed restored, site.changeAccessibility order level = .ok changed ∧
      Site.changeAccessibility order site.declaration.header.accessibility
        ⟨changed, site.enclosing⟩ = .ok restored ∧
      restored.header.keywords.Perm site.declaration.header.keywords := by
  by_cases hsame : level = site.declaration.header.accessibility
  · have hkept : site.changeAccessibility order level = .ok site.declaration :=
      changeAccessibility_of_present hkind (.inr hsame)
    exact ⟨site.declaration, site.declaration, hkept, hsame ▸ hkept, .refl _⟩
  · obtain ⟨old, hold⟩ := hspelled
    have holdLevel : site.declaration.header.accessibility = old := hold.ofKeywords_eq
    have hother : site.accessibility ≠ level := by
      rw [accessibility_of_written hwritten]
      exact Ne.symm hsame
    obtain ⟨header, hchanged, hspells, hothers⟩ :=
      exists_changeAccessibility_of_ne horder hkind ⟨old, hold⟩ hother
    let changed : Site := ⟨{ site.declaration with header }, site.enclosing⟩
    have hread : changed.declaration.header.accessibility = level := hspells.ofKeywords_eq
    have hback : changed.accessibility ≠ site.declaration.header.accessibility := by
      rw [accessibility_of_written fun h => hlevel (hread.symm.trans h), hread]
      exact hsame
    obtain ⟨restored, hrestored, hspellsOld, hothersOld⟩ :=
      @exists_changeAccessibility_of_ne _ changed _ horder hkind ⟨level, hspells⟩ hback
    rw [holdLevel] at hspellsOld
    exact ⟨_, _, hchanged, hrestored, hspellsOld.perm hold (hothersOld.trans hothers)⟩

/-- **A change of accessibility can be taken back.** On sorted and single-spaced modifiers that
spell a level, a change to any level and then back to the old one, in the same place, gives the
keywords and the text of before. -/
theorem exists_changeAccessibility_back (horder : order.Lawful Keyword.all.length)
    (hkind : site.kind.hasModifiers = true)
    (hsorted : order.isSorted site.declaration.header.keywords = true)
    (hspelled : Accessibility.WellSpelled site.declaration.header.keywords)
    (hwritten : site.declaration.header.accessibility ≠ .notApplicable)
    (hspaced : site.declaration.header.SingleSpaced) (hlevel : level ≠ .notApplicable) :
    ∃ changed restored, site.changeAccessibility order level = .ok changed ∧
      Site.changeAccessibility order site.declaration.header.accessibility
        ⟨changed, site.enclosing⟩ = .ok restored ∧
      restored.header.keywords = site.declaration.header.keywords ∧
      restored.header.text = site.declaration.header.text := by
  obtain ⟨changed, restored, hchanged, hrestored, hperm⟩ :=
    exists_changeAccessibility_twice horder hkind hspelled hwritten hlevel
  have hchangedSorted := isSorted_of_changeAccessibility horder hsorted hchanged
  have hrestoredSorted := isSorted_of_changeAccessibility horder hchangedSorted hrestored
  have hkeywords : restored.header.keywords = site.declaration.header.keywords :=
    horder.eq_of_perm hrestoredSorted hsorted hperm
  have hthere := reworded_of_changeAccessibility hspaced hchanged
  have hback := hthere.trans (reworded_of_changeAccessibility hthere.singleSpaced hrestored)
  have hmodifiers : site.declaration.header.modifiers ≠ [] := by
    intro hnil
    apply hwritten
    rw [Header.accessibility, Header.keywords, hnil]
    rfl
  exact ⟨changed, restored, hchanged, hrestored, hkeywords,
    hback.text_eq hspaced hmodifiers hkeywords⟩

/-- One keyword gives way to two and comes back, behind a comment that the first of them carries. -/
theorem changeAccessibility_back_behind_comment :
    ∃ site : Site, ∃ changed restored,
      site.declaration.header.keywords = [.publicKw, .staticKw] ∧
      site.declaration.header.front = [.lineComment "// f", .endOfLine "\n"] ∧
      site.changeAccessibility Keyword.defaultOrder .protectedOrInternal = .ok changed ∧
      changed.header.keywords = [.protectedKw, .internalKw, .staticKw] ∧
      Site.changeAccessibility Keyword.defaultOrder .publicAccess ⟨changed, site.enclosing⟩ =
        .ok restored ∧
      restored.header.keywords = site.declaration.header.keywords ∧
      restored.header.text = site.declaration.header.text := by
  let site : Site := ⟨⟨.method, ⟨[⟨.publicKw, [.lineComment "// f", .endOfLine "\n"], Trivia.space⟩,
    .spaced .staticKw], some (.plain "void"), none, some (.plain "f")⟩, [], []⟩, []⟩
  have hspelled : Accessibility.WellSpelled site.declaration.header.keywords :=
    Accessibility.wellSpelled_iff.2 (.inr (.inl ⟨.publicKw, rfl⟩))
  have hspaced : site.declaration.header.SingleSpaced := ⟨rfl, by decide, by decide⟩
  obtain ⟨changed, restored, hchanged, hrestored, hkeywords, htext⟩ :=
    @exists_changeAccessibility_back _ site .protectedOrInternal Keyword.lawful_defaultOrder rfl rfl
      hspelled (by decide) hspaced (by decide)
  refine ⟨site, changed, restored, rfl, rfl, hchanged, ?_, hrestored, hkeywords, htext⟩
  obtain rfl := Except.ok.inj hchanged
  rfl

end Site

end DeclEdit
