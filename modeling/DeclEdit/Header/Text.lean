import DeclEdit.Header.Tree

/-!
# The text of a header

The leaves of the header tree spell the header part by part: the modifiers with their trivia, the
head, the interface name with a dot behind it, and the name.
-/

namespace DeclEdit

open DeclEdit.Tree (textOfAll)

@[simp] theorem Trivia.textOfAll_trees (trivia : Trivia) : textOfAll trivia.trees = trivia.text := by
  induction trivia with
  | nil => rfl
  | cons piece rest ih =>
    simp only [Trivia.trees, List.filterMap_cons] at ih ⊢
    cases piece <;> simp [Trivia.Piece.tree?, Trivia.Piece.text, ih]

@[simp] theorem Modifier.textOfAll_trees (modifier : Modifier) :
    textOfAll modifier.trees = modifier.fullText := by
  simp [Modifier.trees, Modifier.fullText, String.append_assoc]

@[simp] theorem Token.textOfAll_trees (tag : Tag) (token : Token) :
    textOfAll (token.trees tag) = token.fullText := by
  simp [Token.trees, Token.fullText, String.append_assoc]

namespace Header

/-- The parts of the header one behind the other. -/
def written (header : Header) : String :=
  String.join (header.modifiers.map Modifier.fullText) ++
    (header.head.map Token.fullText).getD "" ++
    (header.explicitInterface.map (· ++ ".")).getD "" ++
    (header.name.map Token.fullText).getD ""

theorem text_modifierTree (header : Header) :
    header.modifierTree.text = String.join (header.modifiers.map Modifier.fullText) := by
  rw [modifierTree, Tree.text_node]
  induction header.modifiers with
  | nil => rfl
  | cons modifier rest ih => simp [ih, String.join_cons]

/-- With a dot behind every part, the parts of a text are the text and a last dot. -/
theorem textOfAll_interfaceParts (text : List Char) :
    textOfAll ((Text.pieces (· = '.') text).flatMap fun part =>
      [.leaf .identifier (String.ofList part), .leaf .dot "."]) = String.ofList text ++ "." := by
  induction text with
  | nil => rfl
  | cons c rest ih =>
    have hcons : String.ofList (c :: rest) = String.ofList [c] ++ String.ofList rest := by
      rw [← String.ofList_append, List.singleton_append]
    simp only [Text.pieces]
    split
    · next hdot =>
      rw [List.flatMap_cons, Tree.textOfAll_append, ih, hcons]
      simp_all [String.append_assoc]
    · obtain ⟨part, parts, hparts⟩ := List.exists_cons_of_ne_nil (Text.pieces_ne_nil _ rest)
      have hpart : String.ofList (c :: part) = String.ofList [c] ++ String.ofList part := by
        rw [← String.ofList_append, List.singleton_append]
      rw [hparts] at ih ⊢
      simp only [List.modifyHead_cons, List.flatMap_cons, Tree.textOfAll_append] at ih ⊢
      rw [hcons, String.append_assoc, ← ih]
      simp [hpart, String.append_assoc]

theorem text_interfaceTree (text : String) : (interfaceTree text).text = text ++ "." := by
  rw [interfaceTree, Tree.text_node, textOfAll_interfaceParts, String.ofList_toList]

theorem text_nameTree (name : Token) : (nameTree name).text = name.fullText := by
  simp [nameTree]

theorem text_eq_written (header : Header) : header.text = header.written := by
  obtain ⟨modifiers, head, explicitInterface, name⟩ := header
  cases head <;> cases explicitInterface <;> cases name <;>
    simp [text, tree, written, text_modifierTree, text_interfaceTree, text_nameTree,
      String.append_assoc]

end Header

end DeclEdit
