import DeclEdit.Accessibility
import DeclEdit.Header.Edits

/-!
# Reading the accessibility of a modifier list

The first visibility keyword decides. A partner for it is looked for only behind it, with other
keywords in between or not, and `protected` prefers `internal` to `private`.
-/

namespace DeclEdit

namespace Accessibility

/-- A level, the index of its first keyword and that of its second one if it has two. -/
structure Reading where
  level : Accessibility
  first : Nat
  second : Option Nat
deriving DecidableEq, Repr

/-- The same reading when one more keyword stands in front of the list. -/
def Reading.shift (reading : Reading) : Reading :=
  { reading with first := reading.first + 1, second := reading.second.map (· + 1) }

/-- The reading of a list that starts with a visibility keyword; indices of the rest are one less
than those of the list. -/
def readFrom? (keyword : Keyword) (rest : List Keyword) : Option Reading :=
  let pairing (partner : Keyword) (level : Accessibility) : Option Reading :=
    (rest.findIdx? (· = partner)).map fun index => ⟨level, 0, some (index + 1)⟩
  match keyword with
  | .publicKw => some ⟨publicAccess, 0, none⟩
  | .privateKw =>
    pairing .protectedKw protectedAndInternal <|> some ⟨privateAccess, 0, none⟩
  | .internalKw =>
    pairing .protectedKw protectedOrInternal <|> some ⟨internalAccess, 0, none⟩
  | .protectedKw =>
    pairing .internalKw protectedOrInternal <|> pairing .privateKw protectedAndInternal <|>
      some ⟨protectedAccess, 0, none⟩
  | _ => none

def read? : List Keyword → Option Reading
  | [] => none
  | keyword :: rest => readFrom? keyword rest <|> (read? rest).map Reading.shift

/-- The level that the keywords spell. -/
def ofKeywords (keywords : List Keyword) : Accessibility :=
  ((read? keywords).map (·.level)).getD notApplicable

end Accessibility

namespace Header

/-- The level that is written in the header. -/
def accessibility (header : Header) : Accessibility := .ofKeywords header.keywords

/-- Removes the keywords of the level that is written, wherever they stand. -/
def removeAccessibility (header : Header) : Header :=
  match Accessibility.read? header.keywords with
  | none => header
  | some ⟨_, first, none⟩ => header.removeAt first
  | some ⟨_, first, some second⟩ => (header.removeAt second).removeAt first

end Header

end DeclEdit
