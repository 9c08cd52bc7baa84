import DeclEdit.Header.Text
import DeclEdit.Proofs.TreeLayout

/-!
# The tree of a header loses nothing

The leaves of the tree spell the header, in whatever way the tree is laid out, and the keywords of
the header can be read off the tags of the leaves in its first node. A tag tells its keyword by its
number, and no trivia have the number of a modifier.
-/

namespace DeclEdit

theorem Trivia.isTrivia_trees (trivia : Trivia) :
    ∀ leaf ∈ Tree.leavesOfAll trivia.trees, leaf.1.isTrivia = true := by
  induction trivia with
  | nil => exact nofun
  | cons piece rest ih =>
    cases piece with
    | elasticMarker => exact ih
    | _ => exact List.forall_mem_cons.2 ⟨rfl, ih⟩

/-- Of the leaves of a modifier only the keyword is one of a modifier. -/
theorem Modifier.filter_isModifier_trees (modifier : Modifier) :
    (Tree.leavesOfAll modifier.trees).filter (·.1.isModifier) =
      [(.keyword modifier.keyword, modifier.keyword.text)] := by
  have hnone (trivia : Trivia) :
      (Tree.leavesOfAll trivia.trees).filter (·.1.isModifier) = [] := by
    rw [List.filter_eq_nil_iff]
    intro leaf hleaf
    simp [Tag.isModifier_eq_false_of_isTrivia (trivia.isTrivia_trees leaf hleaf)]
  have hword : [(Tag.keyword modifier.keyword, modifier.keyword.text)].filter (·.1.isModifier) =
      [(.keyword modifier.keyword, modifier.keyword.text)] := by
    simp [Tag.isModifier_keyword]
  have hleading := hnone modifier.leading
  have htrailing := hnone modifier.trailing
  rw [Tree.leavesOfAll_eq_flatMap] at hleading htrailing ⊢
  rw [Modifier.trees, List.flatMap_append, List.flatMap_append, List.filter_append,
    List.filter_append, hleading, htrailing, List.flatMap_singleton, Tree.leaves, hword,
    List.nil_append, List.append_nil]

theorem Modifier.filter_isModifier_flatMap_trees (modifiers : List Modifier) :
    (Tree.leavesOfAll (modifiers.flatMap Modifier.trees)).filter (·.1.isModifier) =
      modifiers.map fun modifier => (.keyword modifier.keyword, modifier.keyword.text) := by
  induction modifiers with
  | nil => rfl
  | cons modifier rest ih =>
    have hmodifier := modifier.filter_isModifier_trees
    rw [Tree.leavesOfAll_eq_flatMap] at hmodifier ih ⊢
    rw [List.flatMap_cons, List.flatMap_append, List.filter_append, hmodifier, ih]
    rfl

/-- In the first node the leaves of modifiers are told by the numbers of their tags, and so are
their keywords. -/
theorem Header.map_keyword?_modifierTree {header : Header} {children : List SpanTree}
    (h : SpanTree.bareAll children = header.modifiers.flatMap Modifier.trees) :
    ((SpanTree.leavesOfAll children).filter (·.tag.isModifier)).map (·.tag.keyword?) =
      header.keywords.map some := by
  have hleaves := Modifier.filter_isModifier_flatMap_trees header.modifiers
  rw [← h, SpanTree.leavesOfAll_bareAll, List.filter_map] at hleaves
  have htags := congrArg (List.map fun leaf => leaf.1.keyword?) hleaves
  simpa [Function.comp_def, Tag.keyword?_keyword, keywords] using htags

/-- **The tree loses nothing.** In any layout, the leaves spell the header part by part, which is
also the text of the header. Their ranges tile this text from the first byte to the last, each leaf
is cut out by its own range, and every node spans its children and nothing else. The modifiers stand
in the first node. Its leaves with the tag of a modifier are those of the keywords of the header, in
their order. -/
theorem Header.place_tree {place : Tree → SpanTree} (h : Tree.LaysOut place) (header : Header) :
    String.join ((place header.tree).leaves.map (·.text)) = header.written ∧
      header.text = header.written ∧
      Tiles 0 ((place header.tree).leaves.map (·.range)) header.text.utf8ByteSize ∧
      (∀ leaf ∈ (place header.tree).leaves, ∃ before after,
        header.text = before ++ leaf.text ++ after ∧
          leaf.range = (before.utf8ByteSize, (before ++ leaf.text).utf8ByteSize)) ∧
      (place header.tree).Fits ∧
      ∃ stop children others,
        place header.tree = .node .declaration 0 header.text.utf8ByteSize
          (.node .modifierList 0 stop children :: others) ∧
        ((SpanTree.leavesOfAll children).filter (·.tag.isModifier)).map (·.tag.keyword?) =
          header.keywords.map some := by
  have hbare := h.bare_place header.tree
  have hstart := h.start_place header.tree
  have hfits := (h.measured_place header.tree).fits
  have htext : String.join ((place header.tree).leaves.map (·.text)) = header.text := by
    rw [← SpanTree.text_bare, hbare, text]
  have htiles := hfits.tiles_leaves
  have hstop := SpanTree.stop_of_tiles htiles hfits.size_leaf
  rw [hstart, htext, Nat.zero_add] at hstop
  rw [hstart, hstop] at htiles
  refine ⟨htext.trans header.text_eq_written, header.text_eq_written, htiles, ?_, hfits, ?_⟩
  · intro leaf hleaf
    obtain ⟨before, after, hsplit, hbefore⟩ :=
      SpanTree.exists_split_of_tiles htiles hfits.size_leaf hleaf
    rw [Nat.zero_add] at hbefore
    refine ⟨before, after, htext.symm.trans hsplit, Prod.ext hbefore ?_⟩
    rw [hfits.size_leaf leaf hleaf, hbefore, String.utf8ByteSize_append]
  · obtain ⟨start, stop, placed, hplace, hplaced⟩ := SpanTree.bare_eq_node hbare
    obtain ⟨first, others, rfl, hfirst⟩ := SpanTree.bareAll_eq_cons hplaced
    obtain ⟨front, inner, children, rfl, hchildren⟩ := SpanTree.bare_eq_node hfirst
    rw [hplace] at hstart hstop hfits
    obtain rfl : start = 0 := hstart
    obtain rfl : stop = header.text.utf8ByteSize := hstop
    obtain rfl : front = 0 := by
      cases hfits with
      | node _ hsides _ => cases hsides; rfl
    exact ⟨inner, children, others, hplace, map_keyword?_modifierTree hchildren⟩

/-- A tree with trivia of several kinds, two modifiers and an interface name of two parts. A comment
and one of the parts have more bytes than characters. -/
theorem Header.place_tree_accented :
    ∃ (header : Header) (stop : Nat) (children others : List SpanTree),
      Tree.LaysOut (Tree.layOut 0) ∧
      header.keywords = [.publicKw, .staticKw] ∧
      header.text = "\tpublic /*é*/static int A.Bé.x\n" ∧
      String.join ((header.tree.layOut 0).leaves.map (·.text)) = header.written ∧
      (header.tree.layOut 0).leaves.map (·.range) =
        [(0, 1), (1, 7), (7, 8), (8, 14), (14, 20), (20, 21), (21, 24), (24, 25), (25, 26),
          (26, 27), (27, 30), (30, 31), (31, 32), (32, 33)] ∧
      Tiles 0 ((header.tree.layOut 0).leaves.map (·.range)) 33 ∧
      header.tree.layOut 0 =
        .node .declaration 0 33 (.node .modifierList 0 stop children :: others) ∧
      ((SpanTree.leavesOfAll children).filter (·.tag.isModifier)).map (·.tag.keyword?) =
        [some .publicKw, some .staticKw] := by
  let header : Header :=
    { modifiers := [⟨.publicKw, [.whitespace "\t"], [.elasticSpace]⟩,
        ⟨.staticKw, [.elasticMarker, .blockComment "/*é*/"], Trivia.space⟩]
      head := some ⟨"int", [], Trivia.space⟩
      explicitInterface := some "A.Bé"
      name := some ⟨"x", [], [.endOfLine "\n"]⟩ }
  obtain ⟨hwritten, -, htiles, -, -, stop, children, others, hplace, hkeywords⟩ :=
    Header.place_tree Tree.laysOut_layOut header
  have hsize : header.text.utf8ByteSize = 33 := by decide
  rw [hsize] at htiles hplace
  exact ⟨header, stop, children, others, Tree.laysOut_layOut, rfl, by decide, hwritten, by decide,
    htiles, hplace, hkeywords⟩

end DeclEdit
