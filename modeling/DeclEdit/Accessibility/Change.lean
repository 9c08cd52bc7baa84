import DeclEdit.Accessibility.Rules

/-!
# Changing accessibility

A keyword is swapped for another where it stands if the order would put the new one there too;
otherwise the old keywords are removed and the new ones inserted.
-/

namespace DeclEdit

namespace Header

/-- Swaps the one keyword that is written for the one keyword of the level, unless the order puts
the new keyword elsewhere. -/
def swapAccessibility? (order : Ranking Keyword) (level : Accessibility) (header : Header) :
    Except Refusal (Option Header) :=
  match Accessibility.read? header.keywords, level.keywords with
  | some ⟨_, first, none⟩, [keyword] => do
    let index ← order.insertIndex header.keywords keyword
    if index = first ∨ index = first + 1 then
      return some { header with
        modifiers := header.modifiers.modify first fun modifier => { modifier with keyword } }
    else return none
  | _, _ => return none

def setAccessibility (order : Ranking Keyword) (level : Accessibility) (header : Header) :
    Except Refusal Header := do
  match ← header.swapAccessibility? order level with
  | some swapped => return swapped
  | none => header.removeAccessibility.insertKeywords order level.keywords

end Header

namespace Site

/-- Gives the declaration the level, if that is not the level it has anyway. -/
def changeAccessibility (order : Ranking Keyword) (level : Accessibility) (site : Site) :
    Except Refusal Declaration :=
  site.declaration.editHeader fun header =>
    if site.accessibility = level then .ok header else header.setAccessibility order level

/-- Writes the default level out where no level is written. -/
def addAccessibility (order : Ranking Keyword) (site : Site) : Except Refusal Declaration :=
  site.declaration.editHeader fun header =>
    if (Accessibility.read? header.keywords).isSome then .ok header
    else header.insertKeywords order site.defaultAccessibility.keywords

end Site

end DeclEdit
