import DeclEdit.Header
import DeclEdit.Tree

/-!
# The tree of a header

The modifiers stand in a list node, the parts of the interface name and their dots in another, and
the name with its trivia in a third. Elastic markers leave nothing in the tree.
-/

namespace DeclEdit

def Trivia.Piece.tree? : Trivia.Piece → Option Tree
  | .whitespace text => some (.leaf .whitespace text)
  | .endOfLine text => some (.leaf .endOfLine text)
  | .lineComment text => some (.leaf .lineComment text)
  | .blockComment text => some (.leaf .blockComment text)
  | .elasticMarker => none
  | .elasticSpace => some (.leaf .whitespace " ")

def Trivia.trees (trivia : Trivia) : List Tree := trivia.filterMap Piece.tree?

def Modifier.trees (modifier : Modifier) : List Tree :=
  modifier.leading.trees ++ [.leaf (.keyword modifier.keyword) modifier.keyword.text] ++
    modifier.trailing.trees

def Token.trees (tag : Tag) (token : Token) : List Tree :=
  token.leading.trees ++ [.leaf tag token.text] ++ token.trailing.trees

namespace Header

def modifierTree (header : Header) : Tree :=
  .node .modifierList (header.modifiers.flatMap Modifier.trees)

/-- A dot follows every part of the interface name, the last one too. -/
def interfaceTree (text : String) : Tree :=
  .node .explicitInterface ((Text.pieces (· = '.') text.toList).flatMap fun part =>
    [.leaf .identifier (String.ofList part), .leaf .dot "."])

def nameTree (name : Token) : Tree := .node .name (name.trees .identifier)

def tree (header : Header) : Tree :=
  .node .declaration ([header.modifierTree] ++ (header.head.map (Token.trees .head)).getD [] ++
    (header.explicitInterface.map interfaceTree).toList ++ (header.name.map nameTree).toList)

/-- The header as it is written, trivia included. -/
def text (header : Header) : String := header.tree.text

end Header

end DeclEdit
