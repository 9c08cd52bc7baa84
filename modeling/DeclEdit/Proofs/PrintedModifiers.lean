import DeclEdit.Proofs.HeaderLayout
import DeclEdit.Proofs.WordReading

/-!
# Printed modifiers are read back after any history of edits

Blanks in front of all tokens and behind all modifiers stay blanks when edits move them about, and
what an edit writes around a new modifier is blank as well. So two keywords never touch, and the
text of the modifiers is read back keyword by keyword after any number of edits.
-/

namespace DeclEdit

namespace Header

open Text (Blank)

variable {order : Ranking Keyword} {mayEnter : Modifier → Prop} {header result : Header}

/-- Only blanks are written in front of the tokens, and each modifier has some behind it. -/
structure BlankSpaced (header : Header) : Prop where
  blank_leading : ∀ leading ∈ header.leadings, Blank leading.text
  blank_trailing : ∀ modifier ∈ header.modifiers,
    Blank modifier.trailing.text ∧ modifier.trailing.text ≠ ""

theorem joinable_blank : Joinable Blank := ⟨Text.blank_empty, Text.Blank.append⟩

theorem BlankSpaced.of_move (h : header.BlankSpaced) (hmove : Move order mayEnter header result)
    (hmayEnter : ∀ modifier, mayEnter modifier → modifier.StandsApart) : result.BlankSpaced where
  blank_leading := hmove.text_leadings joinable_blank
    (fun modifier hmodifier => (hmayEnter modifier hmodifier).blank_leading) h.blank_leading
  blank_trailing := by
    intro modifier hmodifier
    obtain ⟨old, hold | hentering, htrailing⟩ := hmove.exists_trailing_eq hmodifier
    · rw [htrailing]
      exact h.blank_trailing old hold
    · rw [htrailing]
      exact ⟨(hmayEnter old hentering).blank_trailing, (hmayEnter old hentering).trailing_ne_empty⟩

theorem BlankSpaced.standsApart (h : header.BlankSpaced) :
    ∀ modifier ∈ header.modifiers, modifier.StandsApart := by
  intro modifier hmodifier
  have hleading : modifier.leading ∈ header.leadings := by
    simp only [leadings, List.append_assoc]
    exact List.mem_append_left _ (List.mem_map_of_mem hmodifier)
  obtain ⟨hblank, hne⟩ := h.blank_trailing modifier hmodifier
  exact ⟨h.blank_leading _ hleading, hblank, hne⟩

theorem BlankSpaced.readWords_modifierTree (h : header.BlankSpaced) :
    Modifier.readWords header.modifierTree.text = .ok (header.keywords.map .spaced) := by
  rw [text_modifierTree]
  exact Modifier.readWords_join_fullText h.standsApart

end Header

namespace ModifierEdit

/-- A modifier that is given to the edit stands apart. New ones do so anyway. -/
def BringsApart (edit : ModifierEdit) : Prop :=
  ∀ modifier, edit = .insertModifier modifier → modifier.StandsApart

theorem BringsApart.standsApart {edit : ModifierEdit} (h : edit.BringsApart) :
    ∀ modifier, edit.Brings modifier → modifier.StandsApart := by
  rintro modifier (⟨keyword, rfl⟩ | hgiven)
  · exact Modifier.standsApart_elastic keyword
  · exact h modifier hgiven

/-- **Printed modifiers are read back.** Where blanks alone are written around the modifiers, and
some behind each, no history of edits makes them illegible: their text is read as the keywords that
are there. The orders and the places of the edits do not matter. Modifiers that are given to an
insertion have to stand apart themselves. -/
theorem exists_readWords_of_reachesBy {start result : Declaration}
    (hstart : start.header.BlankSpaced)
    (hresult : ReachesBy (fun _ edit => edit.BringsApart) start result) :
    ∃ modifiers, Modifier.readWords result.header.modifierTree.text = .ok modifiers ∧
      modifiers.map (·.keyword) = result.header.keywords := by
  have hspaced : result.header.BlankSpaced := by
    refine hresult.preserves Header.BlankSpaced ?_ hstart
    intro order edit hedit header moved hmove hheader
    exact hheader.of_move hmove hedit.standsApart
  refine ⟨_, hspaced.readWords_modifierTree, ?_⟩
  rw [List.map_map]
  exact List.map_id _

/-- Two new modifiers come in front of the old one, then the first of them leaves again. -/
theorem exists_readWords_of_reachesBy_tabbed :
    ∃ start result : Declaration,
      start.header.modifierTree.text = "\tstatic \npublic\n" ∧
      ReachesBy (fun _ edit => edit.BringsApart) start result ∧
      result.header.modifierTree.text = "\tinternal static \n" ∧
      ∃ modifiers, Modifier.readWords result.header.modifierTree.text = .ok modifiers ∧
        modifiers.map (·.keyword) = result.header.keywords := by
  let tab : Trivia := [.whitespace "\t"]
  let space : Trivia := [.elasticSpace]
  let field (modifiers : List Modifier) : Declaration :=
    ⟨.field, ⟨modifiers, some (.plain "int"), none, some (.plain "x")⟩, [], []⟩
  let start := field [⟨.staticKw, tab, [.whitespace " ", .endOfLine "\n"]⟩,
    ⟨.publicKw, [], [.endOfLine "\n"]⟩]
  let changed := field [⟨.protectedKw, tab, space⟩, .elastic .internalKw,
    ⟨.staticKw, [], [.whitespace " ", .endOfLine "\n"]⟩]
  let result := field [⟨.internalKw, tab, space⟩,
    ⟨.staticKw, [], [.whitespace " ", .endOfLine "\n"]⟩]
  have hstart : start.header.BlankSpaced := ⟨by decide, by decide⟩
  have hchanged : ReachesBy (fun _ edit => edit.BringsApart) start changed :=
    @ReachesBy.step _ _ Keyword.defaultOrder start changed []
      (.changeAccessibility .protectedOrInternal) .start nofun rfl
  have hresult : ReachesBy (fun _ edit => edit.BringsApart) start result :=
    @ReachesBy.step _ _ Keyword.defaultOrder changed result [] (.removeAt 0) hchanged nofun rfl
  exact ⟨start, result, rfl, hresult, rfl, exists_readWords_of_reachesBy hstart hresult⟩

end ModifierEdit

end DeclEdit
