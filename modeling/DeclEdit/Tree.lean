import DeclEdit.Tree.Tag

/-!
# Header trees

A tree has the text in its leaves. Laid out from an offset, every node and leaf gets the range of
UTF-8 bytes that its text takes up.
-/

namespace DeclEdit

inductive Tree where
  | leaf (tag : Tag) (text : String)
  | node (tag : Tag) (children : List Tree)
deriving Repr

/-- A tree in which everything knows where it starts and ends. -/
inductive SpanTree where
  | leaf (tag : Tag) (start stop : Nat) (text : String)
  | node (tag : Tag) (start stop : Nat) (children : List SpanTree)
deriving Repr

def SpanTree.start : SpanTree → Nat
  | leaf _ start _ _ | node _ start _ _ => start

def SpanTree.stop : SpanTree → Nat
  | leaf _ _ stop _ | node _ _ stop _ => stop

namespace Tree

mutual

def leaves : Tree → List (Tag × String)
  | leaf tag text => [(tag, text)]
  | node _ children => leavesOfAll children

def leavesOfAll : List Tree → List (Tag × String)
  | [] => []
  | tree :: rest => leaves tree ++ leavesOfAll rest

end

def text (tree : Tree) : String := String.join (tree.leaves.map (·.2))

def textOfAll (trees : List Tree) : String := String.join (trees.map text)

theorem leavesOfAll_eq_flatMap (trees : List Tree) : leavesOfAll trees = trees.flatMap leaves := by
  induction trees with
  | nil => rfl
  | cons tree rest ih => simp [leavesOfAll, ih]

@[simp] theorem text_leaf (tag : Tag) (content : String) : (leaf tag content).text = content := by
  simp [text, leaves]

@[simp] theorem textOfAll_nil : textOfAll [] = "" := rfl

@[simp] theorem textOfAll_cons (tree : Tree) (rest : List Tree) :
    textOfAll (tree :: rest) = tree.text ++ textOfAll rest := by
  simp [textOfAll, String.join_cons]

@[simp] theorem textOfAll_append (first second : List Tree) :
    textOfAll (first ++ second) = textOfAll first ++ textOfAll second := by
  simp [textOfAll, String.join_append]

@[simp] theorem text_node (tag : Tag) (children : List Tree) :
    (node tag children).text = textOfAll children := by
  induction children with
  | nil => rfl
  | cons tree rest ih =>
    simp only [text, leaves, textOfAll_cons] at ih ⊢
    rw [← ih, leavesOfAll, List.map_append, String.join_append]

mutual

/-- The tree with its ranges, when its text starts at the offset. -/
def layOut (offset : Nat) : Tree → SpanTree
  | leaf tag text => .leaf tag offset (offset + text.utf8ByteSize) text
  | node tag children =>
    let placed := layOutAll offset children
    .node tag offset placed.2 placed.1

/-- The trees one behind the other, and where the last one ends. -/
def layOutAll (offset : Nat) : List Tree → List SpanTree × Nat
  | [] => ([], offset)
  | tree :: rest =>
    let first := layOut offset tree
    let others := layOutAll first.stop rest
    (first :: others.1, others.2)

end

end Tree

end DeclEdit
