import DeclEdit.Tree
import Mathlib.Algebra.Ring.Nat

/-!
# A laid-out tree covers its text

A layout gives every node and leaf of a tree a range of bytes. It keeps what the tree was built
from, a leaf is as long as its text, a node as long as its children together, and a child starts
behind those in front of it. From this it follows that the leaves tile the text of the whole tree,
that each of them cuts its own text out of it, and that every node spans its children.
-/

namespace DeclEdit

/-- The ranges lie side by side from the first offset to the last, with no gap and no overlap. -/
inductive Tiles : Nat → List (Nat × Nat) → Nat → Prop
  | nil (offset : Nat) : Tiles offset [] offset
  | cons {start stop last : Nat} {rest : List (Nat × Nat)} (hle : start ≤ stop)
      (hrest : Tiles stop rest last) : Tiles start ((start, stop) :: rest) last

theorem Tiles.append {first middle last : Nat} {front back : List (Nat × Nat)}
    (hfront : Tiles first front middle) (hback : Tiles middle back last) :
    Tiles first (front ++ back) last := by
  induction hfront with
  | nil => exact hback
  | cons hle _ ih => exact .cons hle (ih hback)

theorem Tiles.split {first last : Nat} {front back : List (Nat × Nat)}
    (h : Tiles first (front ++ back) last) :
    ∃ middle, Tiles first front middle ∧ Tiles middle back last := by
  induction front generalizing first with
  | nil => exact ⟨first, .nil first, h⟩
  | cons range rest ih =>
    cases h with
    | cons hle hrest =>
      obtain ⟨middle, hfront, hback⟩ := ih hrest
      exact ⟨middle, .cons hle hfront, hback⟩

theorem Tiles.stop_eq {start stop : Nat} {ranges : List (Nat × Nat)} (h : Tiles start ranges stop) :
    stop = start + (ranges.map fun range => range.2 - range.1).sum := by
  induction h with
  | nil => rfl
  | cons hle _ ih =>
    rw [ih, List.map_cons, List.sum_cons]
    omega

theorem utf8ByteSize_join (texts : List String) :
    (String.join texts).utf8ByteSize = (texts.map String.utf8ByteSize).sum := by
  induction texts with
  | nil => rfl
  | cons text rest ih =>
    rw [String.join_cons, String.utf8ByteSize_append, ih, List.map_cons, List.sum_cons]

namespace SpanTree

def range (tree : SpanTree) : Nat × Nat := (tree.start, tree.stop)

def size (tree : SpanTree) : Nat := tree.stop - tree.start

/-- A leaf with its range, apart from the tree. -/
structure Leaf where
  tag : Tag
  range : Nat × Nat
  text : String

mutual

def leaves : SpanTree → List Leaf
  | leaf tag start stop text => [⟨tag, (start, stop), text⟩]
  | node _ _ _ children => leavesOfAll children

def leavesOfAll : List SpanTree → List Leaf
  | [] => []
  | tree :: rest => leaves tree ++ leavesOfAll rest

end

mutual

/-- The tree without its ranges. -/
def bare : SpanTree → Tree
  | leaf tag _ _ text => .leaf tag text
  | node tag _ _ children => .node tag (bareAll children)

def bareAll : List SpanTree → List Tree
  | [] => []
  | tree :: rest => bare tree :: bareAll rest

end

/-- The first tree is the second one or stands somewhere in it. -/
inductive PartOf : SpanTree → SpanTree → Prop
  | whole (tree : SpanTree) : PartOf tree tree
  | inside {part child : SpanTree} {children : List SpanTree} (tag : Tag) (start stop : Nat)
      (hchild : child ∈ children) (hpart : PartOf part child) :
      PartOf part (.node tag start stop children)

/-- How the ranges in a tree are measured. -/
structure Measured (whole : SpanTree) : Prop where
  /-- A leaf is as long as its text in UTF-8. -/
  stop_leaf : ∀ tag start stop text, PartOf (.leaf tag start stop text) whole →
    stop = start + text.utf8ByteSize
  /-- A node is as long as its children together. -/
  stop_node : ∀ tag start stop children, PartOf (.node tag start stop children) whole →
    stop = start + (children.map size).sum
  /-- A child starts as far behind the start of its node as the children in front of it are long. -/
  start_child : ∀ tag start stop front child back,
    PartOf (.node tag start stop (front ++ child :: back)) whole →
    child.start = start + (front.map size).sum

/-- Every leaf takes up as many bytes as its text, and the children of every node tile its range. -/
inductive Fits : SpanTree → Prop
  | leaf (tag : Tag) (start : Nat) (text : String) :
      Fits (.leaf tag start (start + text.utf8ByteSize) text)
  | node (tag : Tag) {start stop : Nat} {children : List SpanTree}
      (htiles : Tiles start (children.map range) stop)
      (hchildren : ∀ child ∈ children, child.Fits) : Fits (.node tag start stop children)

/-! ### From lengths to ranges -/

namespace Measured

variable {tree : SpanTree}

theorem of_mem {tag : Tag} {start stop : Nat} {children : List SpanTree}
    (h : Measured (.node tag start stop children)) (hmem : tree ∈ children) : Measured tree where
  stop_leaf _ _ _ _ hpart := h.stop_leaf _ _ _ _ (.inside tag start stop hmem hpart)
  stop_node _ _ _ _ hpart := h.stop_node _ _ _ _ (.inside tag start stop hmem hpart)
  start_child _ _ _ _ _ _ hpart := h.start_child _ _ _ _ _ _ (.inside tag start stop hmem hpart)

theorem start_le_stop (h : Measured tree) : tree.start ≤ tree.stop := by
  cases tree with
  | leaf tag start stop text =>
    have hstop := h.stop_leaf _ _ _ _ (.whole _)
    exact hstop ▸ Nat.le_add_right ..
  | node tag start stop children =>
    have hstop := h.stop_node _ _ _ _ (.whole _)
    exact hstop ▸ Nat.le_add_right ..

end Measured

/-- Trees of which each starts behind the lengths of those in front of it tile what they take up
together. -/
theorem tiles_of_starts {children : List SpanTree} {start : Nat}
    (hle : ∀ child ∈ children, child.start ≤ child.stop)
    (hstarts : ∀ front child back, children = front ++ child :: back →
      child.start = start + (front.map size).sum) :
    Tiles start (children.map range) (start + (children.map size).sum) := by
  induction children generalizing start with
  | nil => exact .nil start
  | cons first rest ih =>
    obtain ⟨hfirst, hrest⟩ := List.forall_mem_cons.1 hle
    have hstart : first.start = start := hstarts [] first rest rfl
    have hstop : first.stop = start + first.size := by
      rw [size]
      omega
    have hnext : ∀ front child back, rest = front ++ child :: back →
        child.start = first.stop + (front.map size).sum := by
      intro front child back hsplit
      have hchild := hstarts (first :: front) child back (by rw [hsplit, List.cons_append])
      rw [hchild, List.map_cons, List.sum_cons, hstop, Nat.add_assoc]
    have htiles := ih hrest hnext
    rw [hstop, Nat.add_assoc] at htiles
    rw [List.map_cons, List.map_cons, List.sum_cons, range, hstart, hstop]
    exact .cons (Nat.le_add_right ..) htiles

theorem Measured.fits {tree : SpanTree} (h : tree.Measured) : tree.Fits :=
  match tree with
  | .leaf tag start stop text => by
    obtain rfl := h.stop_leaf _ _ _ _ (.whole _)
    exact .leaf tag start text
  | .node tag start stop children => by
    have htiles : Tiles start (children.map range) (start + (children.map size).sum) := by
      refine tiles_of_starts (fun child hchild => (h.of_mem hchild).start_le_stop) ?_
      rintro front child back rfl
      exact h.start_child _ _ _ _ _ _ (.whole _)
    obtain rfl := h.stop_node _ _ _ _ (.whole _)
    exact .node tag htiles fun child hchild => (h.of_mem hchild).fits

/-! ### Leaves of a measured tree -/

theorem tiles_leavesOfAll {children : List SpanTree} {start stop : Nat}
    (htiles : Tiles start (children.map range) stop)
    (hchildren : ∀ child ∈ children,
      Tiles child.start (child.leaves.map (·.range)) child.stop) :
    Tiles start ((leavesOfAll children).map (·.range)) stop := by
  induction children generalizing start with
  | nil => exact htiles
  | cons child rest ih =>
    obtain ⟨hchild, hrest⟩ := List.forall_mem_cons.1 hchildren
    rw [List.map_cons] at htiles
    cases htiles with
    | cons _ htiles =>
      rw [leavesOfAll, List.map_append]
      exact hchild.append (ih htiles hrest)

/-- The leaves tile the range of the whole, however deep they lie. -/
theorem Fits.tiles_leaves {tree : SpanTree} (h : tree.Fits) :
    Tiles tree.start (tree.leaves.map (·.range)) tree.stop := by
  induction h with
  | leaf tag start text => exact .cons (Nat.le_add_right ..) (.nil _)
  | node tag htiles _ ih => exact tiles_leavesOfAll htiles ih

theorem mem_leavesOfAll {children : List SpanTree} {leaf : Leaf} :
    leaf ∈ leavesOfAll children ↔ ∃ child ∈ children, leaf ∈ child.leaves := by
  induction children with
  | nil => simp [leavesOfAll]
  | cons child rest ih => simp [leavesOfAll, ih]

theorem Fits.size_leaf {tree : SpanTree} (h : tree.Fits) :
    ∀ leaf ∈ tree.leaves, leaf.range.2 = leaf.range.1 + leaf.text.utf8ByteSize := by
  induction h with
  | leaf tag start text =>
    intro leaf hleaf
    obtain rfl := List.mem_singleton.1 hleaf
    rfl
  | node tag _ _ ih =>
    intro leaf hleaf
    obtain ⟨child, hchild, hleaf⟩ := mem_leavesOfAll.1 hleaf
    exact ih child hchild leaf hleaf

/-- Where the leaves tile a range, each one starts behind the texts in front of it. -/
theorem exists_split_of_tiles {leaves : List Leaf} {start stop : Nat}
    (htiles : Tiles start (leaves.map (·.range)) stop)
    (hsizes : ∀ leaf ∈ leaves, leaf.range.2 = leaf.range.1 + leaf.text.utf8ByteSize)
    {leaf : Leaf} (hleaf : leaf ∈ leaves) :
    ∃ before after, String.join (leaves.map (·.text)) = before ++ leaf.text ++ after ∧
      leaf.range.1 = start + before.utf8ByteSize := by
  induction leaves generalizing start with
  | nil => cases hleaf
  | cons first rest ih =>
    obtain ⟨hfirst, hrest⟩ := List.forall_mem_cons.1 hsizes
    rw [List.map_cons] at htiles
    generalize hrange : first.range = range at htiles
    cases htiles with
    | cons _ htiles =>
      rw [hrange] at hfirst
      rcases List.mem_cons.1 hleaf with rfl | hleaf
      · exact ⟨"", String.join (rest.map (·.text)), by simp [String.join_cons], by rw [hrange]; rfl⟩
      · obtain ⟨before, after, htext, hstart⟩ := ih htiles hrest hleaf
        refine ⟨first.text ++ before, after, ?_, ?_⟩
        · rw [List.map_cons, String.join_cons, htext]
          simp only [String.append_assoc]
        · rw [hstart, String.utf8ByteSize_append]
          simp only at hfirst
          omega

/-- Leaves that tile a range take it up with their texts. -/
theorem stop_of_tiles {leaves : List Leaf} {start stop : Nat}
    (htiles : Tiles start (leaves.map (·.range)) stop)
    (hsizes : ∀ leaf ∈ leaves, leaf.range.2 = leaf.range.1 + leaf.text.utf8ByteSize) :
    stop = start + (String.join (leaves.map (·.text))).utf8ByteSize := by
  have hlengths : leaves.map (fun leaf => leaf.range.2 - leaf.range.1) =
      leaves.map (fun leaf => leaf.text.utf8ByteSize) := by
    apply List.map_congr_left
    intro leaf hleaf
    rw [hsizes leaf hleaf, Nat.add_sub_cancel_left]
  rw [htiles.stop_eq, utf8ByteSize_join, List.map_map, List.map_map]
  exact congrArg (start + ·.sum) hlengths

/-! ### Trees without their ranges -/

mutual

theorem leaves_bare (tree : SpanTree) :
    tree.bare.leaves = tree.leaves.map fun leaf => (leaf.tag, leaf.text) := by
  cases tree with
  | leaf tag start stop text => rfl
  | node tag start stop children => exact leavesOfAll_bareAll children

theorem leavesOfAll_bareAll (trees : List SpanTree) :
    Tree.leavesOfAll (bareAll trees) =
      (leavesOfAll trees).map fun leaf => (leaf.tag, leaf.text) := by
  cases trees with
  | nil => rfl
  | cons tree rest =>
    rw [bareAll, Tree.leavesOfAll, leaves_bare tree, leavesOfAll_bareAll rest, leavesOfAll,
      List.map_append]

end

theorem text_bare (tree : SpanTree) :
    tree.bare.text = String.join (tree.leaves.map (·.text)) := by
  rw [Tree.text, leaves_bare, List.map_map]
  rfl

theorem bare_eq_node {tree : SpanTree} {tag : Tag} {children : List Tree}
    (h : tree.bare = .node tag children) :
    ∃ start stop placed, tree = .node tag start stop placed ∧ bareAll placed = children := by
  cases tree with
  | leaf => cases h
  | node found start stop placed =>
    obtain ⟨rfl, hplaced⟩ := Tree.node.inj h
    exact ⟨start, stop, placed, rfl, hplaced⟩

theorem bareAll_eq_cons {trees : List SpanTree} {first : Tree} {rest : List Tree}
    (h : bareAll trees = first :: rest) :
    ∃ tree others, trees = tree :: others ∧ tree.bare = first := by
  cases trees with
  | nil => cases h
  | cons tree others => exact ⟨tree, others, rfl, (List.cons.inj h).1⟩

end SpanTree

/-! ### The layout that is computed -/

namespace SpanTree

theorem Fits.of_partOf {part whole : SpanTree} (h : whole.Fits) (hpart : PartOf part whole) :
    part.Fits := by
  induction hpart with
  | whole => exact h
  | inside tag start stop hchild _ ih =>
    cases h with
    | node _ _ hchildren => exact ih (hchildren _ hchild)

/-- Where ranges fit, the lengths are as they should be. -/
theorem Fits.measured {whole : SpanTree} (h : whole.Fits) : whole.Measured := by
  constructor
  · intro tag start stop text hpart
    cases h.of_partOf hpart
    rfl
  · intro tag start stop children hpart
    cases h.of_partOf hpart with
    | node _ htiles _ =>
      have hstop := htiles.stop_eq
      rwa [List.map_map] at hstop
  · intro tag start stop front child back hpart
    cases h.of_partOf hpart with
    | node _ htiles _ =>
      rw [List.map_append, List.map_cons] at htiles
      obtain ⟨middle, hfront, hback⟩ := htiles.split
      have hmiddle := hfront.stop_eq
      rw [List.map_map] at hmiddle
      cases hback
      exact hmiddle

end SpanTree

namespace Tree

open SpanTree (Fits Measured range)

/-- What is known of a layout: it keeps what a tree was built from in the order in which it was put
there, starts at the front, and measures in bytes. -/
structure LaysOut (place : Tree → SpanTree) : Prop where
  bare_place : ∀ tree, (place tree).bare = tree
  start_place : ∀ tree, (place tree).start = 0
  measured_place : ∀ tree, (place tree).Measured

theorem start_layOut (tree : Tree) (offset : Nat) : (tree.layOut offset).start = offset := by
  cases tree <;> rfl

mutual

theorem le_stop_layOut (tree : Tree) (offset : Nat) : offset ≤ (tree.layOut offset).stop := by
  cases tree with
  | leaf tag text => exact Nat.le_add_right ..
  | node tag children => exact le_stop_layOutAll children offset

theorem le_stop_layOutAll (trees : List Tree) (offset : Nat) :
    offset ≤ (layOutAll offset trees).2 := by
  cases trees with
  | nil => exact Nat.le_refl offset
  | cons tree rest => exact Nat.le_trans (le_stop_layOut tree offset) (le_stop_layOutAll rest _)

end

theorem tiles_layOutAll (trees : List Tree) (offset : Nat) :
    Tiles offset ((layOutAll offset trees).1.map range) (layOutAll offset trees).2 := by
  induction trees generalizing offset with
  | nil => exact .nil offset
  | cons tree rest ih =>
    have hrange : (tree.layOut offset).range = (offset, (tree.layOut offset).stop) := by
      rw [range, start_layOut]
    rw [layOutAll, List.map_cons, hrange]
    exact .cons (le_stop_layOut tree offset) (ih _)

mutual

theorem fits_layOut (tree : Tree) (offset : Nat) : (tree.layOut offset).Fits := by
  cases tree with
  | leaf tag text => exact .leaf tag offset text
  | node tag children =>
    exact .node tag (tiles_layOutAll children offset) (fits_layOutAll children offset)

theorem fits_layOutAll (trees : List Tree) (offset : Nat) :
    ∀ child ∈ (layOutAll offset trees).1, child.Fits := by
  cases trees with
  | nil => exact fun _ hchild => nomatch hchild
  | cons tree rest =>
    exact List.forall_mem_cons.2 ⟨fits_layOut tree offset, fits_layOutAll rest _⟩

end

mutual

theorem bare_layOut (tree : Tree) (offset : Nat) : (tree.layOut offset).bare = tree := by
  cases tree with
  | leaf tag text => rfl
  | node tag children => exact congrArg (node tag) (bareAll_layOutAll children offset)

theorem bareAll_layOutAll (trees : List Tree) (offset : Nat) :
    SpanTree.bareAll (layOutAll offset trees).1 = trees := by
  cases trees with
  | nil => rfl
  | cons tree rest =>
    rw [layOutAll, SpanTree.bareAll, bare_layOut tree, bareAll_layOutAll rest]

end

theorem laysOut_layOut : LaysOut (layOut 0) where
  bare_place tree := bare_layOut tree 0
  start_place tree := start_layOut tree 0
  measured_place tree := (fits_layOut tree 0).measured

end Tree

end DeclEdit
