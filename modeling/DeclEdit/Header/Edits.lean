import DeclEdit.Header
import DeclEdit.Ranking

/-!
# Edits of a header's modifiers

Every edit keeps the layout in front of the declaration where it is: a modifier that comes to the
front takes it over, and one that leaves the front hands it on.
-/

namespace DeclEdit.Header

def insertAt (header : Header) (index : Nat) (modifier : Modifier) : Header :=
  match index with
  | 0 =>
    let opened := header.mapFront fun _ => []
    let first := { modifier with leading := Trivia.takenOver header.front modifier.leading }
    { opened with modifiers := first :: opened.modifiers }
  | index + 1 => { header with modifiers := header.modifiers.insertIdx (index + 1) modifier }

/-- Inserts a modifier where the order puts its keyword. -/
def insert (order : Ranking Keyword) (modifier : Modifier) (header : Header) :
    Except Refusal Header := do
  let index ← order.insertIndex header.keywords modifier.keyword
  return header.insertAt index modifier

/-- Inserts a new modifier for each keyword in turn. -/
def insertKeywords (order : Ranking Keyword) (keywords : List Keyword) (header : Header) :
    Except Refusal Header :=
  keywords.foldlM (fun edited keyword => edited.insert order (.elastic keyword)) header

/-- Leaves the header alone if there is no modifier at the index. -/
def removeAt (header : Header) (index : Nat) : Header :=
  match header.modifiers, index with
  | first :: rest, 0 => { header with modifiers := rest }.handOver first.leading
  | modifiers, index => { header with modifiers := modifiers.eraseIdx index }

/-- Removes the first modifier with the keyword. -/
def remove (keyword : Keyword) (header : Header) : Header :=
  match header.keywords.findIdx? (· = keyword) with
  | some index => header.removeAt index
  | none => header

def removeAll (header : Header) : Header :=
  match header.modifiers with
  | [] => header
  | first :: _ => { header with modifiers := [] }.handOver first.leading

/-- Sorts the modifiers by rank, equal ones in their old order. The layout in front stays in front
of whichever modifier comes first. -/
def reorder (order : Ranking Keyword) (header : Header) : Header :=
  if order.isSorted header.keywords then header
  else
    let opened := header.mapFront fun _ => []
    let sorted := opened.modifiers.mergeSort
      fun a b => decide (order.rank a.keyword ≤ order.rank b.keyword)
    { opened with modifiers := sorted }.mapFront (Trivia.handedOver header.front)

end DeclEdit.Header
