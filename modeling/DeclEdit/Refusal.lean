import DeclEdit.Declaration.Kind
import DeclEdit.Keyword
import DeclEdit.Member.Category

/-!
# Refusals

Why something that was asked for is not done: one constructor for each cause, and the wording of
all of them in one place.
-/

namespace DeclEdit

open Declaration (Kind)

inductive Refusal where
  | unknownKeyword (word : String)
  | badIdentifier (text : String)
  | badInterfaceName (text : String)
  | foreignMember (member container : Kind)
  | foreignAccessor (kind : Kind)
  | repeatedKeyword (keyword : Keyword)
  | missingKeywords (keywords : List Keyword)
  | repeatedCategory (category : Category)
  | wrongCategoryCount (count : Nat)
  | unsupportedKind (kind : Kind)
  | indexOutOfRange (index length : Nat)
  | rankGap (rank : Nat)
deriving DecidableEq, Repr

namespace Refusal

/-- What is wrong with an argument, for the causes that lie in one. -/
def fault? : Refusal → Option String
  | unknownKeyword word => some s!"unknown modifier keyword `{word}`"
  | badIdentifier text => some s!"`{text}` is not a valid identifier"
  | badInterfaceName text => some s!"`{text}` is not a valid interface name"
  | foreignMember member container =>
    some ("a " ++ member.name ++ " cannot be a member of a " ++ container.name)
  | foreignAccessor kind => some ("a " ++ kind.name ++ " cannot be an accessor")
  | repeatedKeyword keyword =>
    some ("modifier `" ++ keyword.text ++ "` appears twice in the order table")
  | missingKeywords keywords =>
    some ("order table is missing modifiers: " ++ ", ".intercalate (keywords.map (·.text)))
  | repeatedCategory category =>
    some ("member kind " ++ category.name ++ " appears twice in the order table")
  | wrongCategoryCount count =>
    some s!"order table has {count} member kinds, expected {Category.all.length}"
  | unsupportedKind _ | indexOutOfRange _ _ | rankGap _ => none

def message : Refusal → String
  | unsupportedKind kind => "Unsupported declaration kind: " ++ kind.name
  | indexOutOfRange index length => s!"Index {index} out of range for length {length}"
  | rankGap rank => s!"canonical order has no category at rank {rank}"
  | argument => "Invalid argument: " ++ argument.fault?.getD ""

end Refusal

end DeclEdit
