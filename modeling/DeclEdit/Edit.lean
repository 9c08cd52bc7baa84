import DeclEdit.Accessibility.Change
import DeclEdit.Keyword.Order
import DeclEdit.Member.Arrangement

/-!
# Edits

Edits as data, so that a history of edits is a list. The edits of modifiers form a type of their
own: only kinds with modifiers take them.
-/

namespace DeclEdit

/-- The orders that edits follow. -/
structure Conventions where
  keywords : Ranking Keyword
  members : Arrangement

inductive ModifierEdit where
  | insert (keyword : Keyword)
  | insertModifier (modifier : Modifier)
  | remove (keyword : Keyword)
  | removeAt (index : Nat)
  | removeAccessibility
  | removeAll
  | reorder
  | changeAccessibility (level : Accessibility)
  | addAccessibility
deriving DecidableEq, Repr

/-- The edited declaration, which stands at the same site. -/
def ModifierEdit.apply (order : Ranking Keyword) (site : Site) :
    ModifierEdit → Except Refusal Declaration
  | .insert keyword => site.declaration.editHeader (·.insert order (.elastic keyword))
  | .insertModifier modifier => site.declaration.editHeader (·.insert order modifier)
  | .remove keyword => site.declaration.editHeader fun header => .ok (header.remove keyword)
  | .removeAt index => site.declaration.editHeader fun header =>
    if index < header.modifiers.length then .ok (header.removeAt index)
    else .error (.indexOutOfRange index header.modifiers.length)
  | .removeAccessibility => site.declaration.editHeader fun header => .ok header.removeAccessibility
  | .removeAll => site.declaration.editHeader fun header => .ok header.removeAll
  | .reorder => site.declaration.editHeader fun header => .ok (header.reorder order)
  | .changeAccessibility level => site.changeAccessibility order level
  | .addAccessibility => site.addAccessibility order

inductive Edit where
  | ofModifiers (edit : ModifierEdit)
  | setModifiers (modifiers : List Modifier)
  | setHead (head : Option Token)
  | setName (name : Option Token)
  | setMembers (members : List Declaration)
  | setAccessors (accessors : List Declaration)
  | replaceMember (index : Nat) (member : Declaration)
  | replaceAccessor (index : Nat) (accessor : Declaration)
  | insertMember (member : Declaration)
  | removeMember (index : Nat)
  | sortMembers

def Edit.apply (conventions : Conventions) (site : Site) : Edit → Except Refusal Declaration
  | .ofModifiers edit => edit.apply conventions.keywords site
  | .setModifiers modifiers => .ok (site.declaration.setModifiers modifiers)
  | .setHead head => .ok (site.declaration.setHead head)
  | .setName name => .ok (site.declaration.setName name)
  | .setMembers members => site.declaration.setMembers members
  | .setAccessors accessors => site.declaration.setAccessors accessors
  | .replaceMember index member => site.declaration.replaceMember index member
  | .replaceAccessor index accessor => site.declaration.replaceAccessor index accessor
  | .insertMember member => site.declaration.insertMember conventions.members member
  | .removeMember index => site.declaration.removeMember index
  | .sortMembers => site.declaration.sortMembers conventions.members

end DeclEdit
