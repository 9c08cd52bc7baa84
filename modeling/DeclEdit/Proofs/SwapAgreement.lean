import DeclEdit.Proofs.FrontTrivia
import DeclEdit.Proofs.LevelChange

/-!
# Swap and rewrite agree

A change of accessibility swaps a keyword where it can. The long way removes the keywords of the old
level and inserts those of the new one. On sorted modifiers that stand one space apart, the two ways
lead to the same keywords and to the same text. In place of the old keyword the long way has a new
modifier, and its trivia are written like those that the swap keeps: behind the first modifier
because nothing but one space is written around the old keyword, at the front because the layout
there is handed to the next token and taken back.
-/

namespace DeclEdit

namespace Header

variable {order : Ranking Keyword} {header : Header} {level : Accessibility} {first : Nat}

/-- Something follows the modifiers. One space stands behind each of them, and nothing is written
in front of any token but the first one. -/
structure SingleSpaced (header : Header) : Prop where
  isSome_firstAfterModifiers? : header.firstAfterModifiers?.isSome = true
  text_trailing : ∀ modifier ∈ header.modifiers, modifier.trailing.text = " "
  text_leading : ∀ leading ∈ header.leadings.tail, leading.text = ""

theorem removeAt_succ (header : Header) (index : Nat) :
    header.removeAt (index + 1) =
      { header with modifiers := header.modifiers.eraseIdx (index + 1) } := by
  unfold removeAt
  split <;> simp_all

/-- At the front, the layout in front comes back to the modifier that took the place. -/
theorem SingleSpaced.written_swapAt_zero (h : header.SingleSpaced)
    (hmodifiers : header.modifiers ≠ []) (keyword : Keyword) :
    ((header.removeAt 0).insertAt 0 (.elastic keyword)).written =
      (header.swapAt 0 keyword).written := by
  obtain ⟨modifiers, head, explicitInterface, name⟩ := header
  obtain ⟨old, rest, rfl⟩ := List.exists_cons_of_ne_nil hmodifiers
  let tail : Header := ⟨rest, head, explicitInterface, name⟩
  have htoken : tail.leadings ≠ [] := leadings_ne_nil_of_isSome h.isSome_firstAfterModifiers?
  have hfront : tail.front.text = "" := by
    obtain ⟨leading, others, hleadings⟩ := List.exists_cons_of_ne_nil htoken
    have hmem : leading ∈ tail.leadings := hleadings ▸ List.mem_cons_self
    rw [front_eq_headD, hleadings]
    exact h.text_leading leading hmem
  have htrailing : old.trailing.text = " " := h.text_trailing old List.mem_cons_self
  calc
    ((tail.handOver old.leading).insertAt 0 (.elastic keyword)).written
      = (tail.handOver old.leading).front.text ++ (Modifier.elastic keyword).fullText ++
          ((tail.handOver old.leading).mapFront fun _ => []).written := written_insertAt_zero ..
    _ = old.leading.text ++ (Modifier.elastic keyword).fullText ++
          (tail.mapFront fun _ => []).written := by
      rw [text_front_handOver htoken, hfront, String.append_empty, mapFront_nil_handOver]
    _ = old.leading.text ++ (Modifier.elastic keyword).fullText ++ tail.written := by
      rw [written_mapFront_of_text_eq htoken (by rw [hfront, Trivia.text_nil])]
    _ = ({ old with keyword } : Modifier).fullText ++ tail.written := by
      simp [Modifier.fullText, Modifier.elastic, Trivia.Piece.text, htrailing, String.append_assoc]
    _ = written ⟨{ old with keyword } :: rest, head, explicitInterface, name⟩ :=
      (written_cons _ tail).symm

/-- Further behind, the new modifier is written like the old one with another keyword. -/
theorem SingleSpaced.written_swapAt_succ (h : header.SingleSpaced)
    (hfirst : first + 1 < header.modifiers.length) (keyword : Keyword) :
    ((header.removeAt (first + 1)).insertAt (first + 1) (.elastic keyword)).written =
      (header.swapAt (first + 1) keyword).written := by
  have hleading : header.modifiers[first + 1].leading.text = "" := by
    refine h.text_leading _ ?_
    obtain ⟨modifiers, head, explicitInterface, name⟩ := header
    cases modifiers with
    | nil => cases hfirst
    | cons front rest =>
      have hmem : rest.get ⟨first, Nat.lt_of_succ_lt_succ hfirst⟩ ∈ rest := List.get_mem _ _
      exact List.mem_append_left _ (List.mem_append_left _ (List.mem_map_of_mem hmem))
  have htrailing : header.modifiers[first + 1].trailing.text = " " :=
    h.text_trailing _ (List.getElem_mem hfirst)
  have hnew : ({ header.modifiers[first + 1] with keyword } : Modifier).fullText =
      (Modifier.elastic keyword).fullText := by
    simp [Modifier.fullText, Modifier.elastic, Trivia.Piece.text, hleading, htrailing]
  have htexts : (header.modifiers.set (first + 1) (.elastic keyword)).map Modifier.fullText =
      (header.modifiers.modify (first + 1) fun old => { old with keyword }).map
        Modifier.fullText := by
    refine List.ext_getElem (by simp) ?_
    intro index _ _
    by_cases hindex : index = first + 1
    · subst hindex
      simp [hnew]
    · simp [List.getElem_modify_ne, List.getElem_set_ne, Ne.symm hindex]
  rw [removeAt_succ]
  simp only [insertAt, swapAt, written]
  rw [List.insertIdx_eraseIdx_self (Nat.ne_of_lt hfirst), htexts]

theorem SingleSpaced.written_swapAt (h : header.SingleSpaced)
    (hfirst : first < header.modifiers.length) (keyword : Keyword) :
    ((header.removeAt first).insertAt first (.elastic keyword)).written =
      (header.swapAt first keyword).written := by
  cases first with
  | zero => exact h.written_swapAt_zero (List.ne_nil_of_length_pos hfirst) keyword
  | succ first => exact h.written_swapAt_succ hfirst keyword

theorem keywords_insertAt_removeAt (hfirst : first < header.keywords.length) (keyword : Keyword) :
    ((header.removeAt first).insertAt first (.elastic keyword)).keywords =
      (header.swapAt first keyword).keywords := by
  rw [keywords_insertAt, keywords_removeAt, keywords_swapAt]
  exact List.insertIdx_eraseIdx_self (Nat.ne_of_lt hfirst) keyword

/-- Where a keyword is swapped on sorted modifiers, the long way inserts the new one at the index
of the old one. -/
theorem insertKeywords_removeAccessibility_of_swap (horder : order.Lawful Keyword.all.length)
    (hsorted : order.isSorted header.keywords = true) {swapped : Header}
    (hswap : header.swapAccessibility? order level = .ok (some swapped)) :
    ∃ first keyword, first < header.keywords.length ∧ swapped = header.swapAt first keyword ∧
      header.removeAccessibility.insertKeywords order level.keywords =
        .ok ((header.removeAt first).insertAt first (.elastic keyword)) := by
  obtain ⟨written, first, keyword, index, hread, hlevel, hindex, hplace, rfl⟩ :=
    exists_of_swapAccessibility?_eq_some hswap
  have hfirst : first < header.keywords.length :=
    (Accessibility.found_of_read? hread).first_lt_length
  refine ⟨first, keyword, hfirst, rfl, ?_⟩
  have hremoved : header.removeAccessibility = header.removeAt first := by
    simp only [removeAccessibility, hread]
  have hinsert : (header.removeAt first).insert order (.elastic keyword) =
      .ok ((header.removeAt first).insertAt first (.elastic keyword)) := by
    refine insert_eq_ok_iff.2 ⟨first, ?_, rfl⟩
    rw [keywords_removeAt]
    exact horder.insertIndex_eraseIdx hindex hplace hfirst hsorted
  rw [hremoved, hlevel, insertKeywords_cons, hinsert]
  rfl

theorem exists_setAccessibility_agrees (horder : order.Lawful Keyword.all.length)
    (hsorted : order.isSorted header.keywords = true) (hspaced : header.SingleSpaced)
    (level : Accessibility) :
    ∃ changed rewritten, header.setAccessibility order level = .ok changed ∧
      header.removeAccessibility.insertKeywords order level.keywords = .ok rewritten ∧
      changed.keywords = rewritten.keywords ∧ changed.text = rewritten.text := by
  obtain ⟨swapped?, hswap⟩ := exists_swapAccessibility? horder header level
  rw [setAccessibility, hswap]
  cases swapped? with
  | some swapped =>
    obtain ⟨first, keyword, hfirst, rfl, hrewritten⟩ :=
      insertKeywords_removeAccessibility_of_swap horder hsorted hswap
    have hkeywords := keywords_insertAt_removeAt hfirst keyword
    have htext := hspaced.written_swapAt (by simpa [keywords] using hfirst) keyword
    rw [← text_eq_written, ← text_eq_written] at htext
    exact ⟨_, _, rfl, hrewritten, hkeywords.symm, htext.symm⟩
  | none =>
    obtain ⟨rewritten, hrewritten, -, -⟩ :=
      exists_insertKeywords_of_level horder level header.removeAccessibility
    exact ⟨rewritten, rewritten, hrewritten, hrewritten, rfl, rfl⟩

end Header

/-- **The short way and the long way agree.** On sorted and single-spaced modifiers, a change to
another level gives the same keywords and the same text as removing the old level and inserting the
keywords of the new one. -/
theorem Site.exists_changeAccessibility_agrees {order : Ranking Keyword} {site : Site}
    {level : Accessibility} (horder : order.Lawful Keyword.all.length)
    (hkind : site.kind.hasModifiers = true)
    (hsorted : order.isSorted site.declaration.header.keywords = true)
    (hspaced : site.declaration.header.SingleSpaced) (hlevel : level ≠ site.accessibility) :
    ∃ changed rewritten, site.changeAccessibility order level = .ok changed ∧
      ModifierEdit.applyAll order site.enclosing
        (.removeAccessibility :: level.keywords.map .insert) site.declaration = .ok rewritten ∧
      changed.header.keywords = rewritten.header.keywords ∧
      changed.header.text = rewritten.header.text := by
  obtain ⟨changed, rewritten, hchanged, hrewritten, hkeywords, htext⟩ :=
    Header.exists_setAccessibility_agrees horder hsorted hspaced level
  refine ⟨{ site.declaration with header := changed },
    { site.declaration with header := rewritten }, ?_, ?_, hkeywords, htext⟩
  · refine Declaration.editHeader_eq_ok_iff.2 ⟨hkind, changed, ?_, rfl⟩
    rw [if_neg hlevel.symm]
    exact hchanged
  · have hremoved : ModifierEdit.removeAccessibility.apply order site =
        .ok { site.declaration with header := site.declaration.header.removeAccessibility } := by
      rw [ModifierEdit.apply, Declaration.editHeader_eq_ok_iff]
      exact ⟨hkind, site.declaration.header.removeAccessibility, rfl, rfl⟩
    rw [ModifierEdit.applyAll_cons, hremoved]
    exact @ModifierEdit.applyAll_insert _ _
      { site.declaration with header := site.declaration.header.removeAccessibility } hkind _ _
      hrewritten

/-- The layout of the whole declaration stays in front of the keyword that is swapped. -/
theorem Site.changeAccessibility_agrees_behind_comment :
    ∃ changed rewritten,
      Site.changeAccessibility Keyword.defaultOrder .internalAccess
        ⟨⟨.method, ⟨[⟨.publicKw, [.lineComment "// f", .endOfLine "\n"], Trivia.space⟩,
          .spaced .staticKw], some (.plain "void"), none, some (.plain "f")⟩, [], []⟩, []⟩ =
        .ok changed ∧
      ModifierEdit.applyAll Keyword.defaultOrder [] [.removeAccessibility, .insert .internalKw]
        ⟨.method, ⟨[⟨.publicKw, [.lineComment "// f", .endOfLine "\n"], Trivia.space⟩,
          .spaced .staticKw], some (.plain "void"), none, some (.plain "f")⟩, [], []⟩ =
        .ok rewritten ∧
      changed.header.keywords = rewritten.header.keywords ∧
      changed.header.text = rewritten.header.text := by
  let site : Site := ⟨⟨.method, ⟨[⟨.publicKw, [.lineComment "// f", .endOfLine "\n"], Trivia.space⟩,
    .spaced .staticKw], some (.plain "void"), none, some (.plain "f")⟩, [], []⟩, []⟩
  have hspaced : site.declaration.header.SingleSpaced := ⟨rfl, by decide, by decide⟩
  exact @exists_changeAccessibility_agrees _ site _ Keyword.lawful_defaultOrder rfl rfl hspaced
    (by decide)

end DeclEdit
