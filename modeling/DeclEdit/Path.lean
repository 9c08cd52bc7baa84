import DeclEdit.Edit

/-!
# Paths

A path leads from a declaration down through members and accessors. An edit at the end of a path
rebuilds every declaration on the way back up.
-/

namespace DeclEdit

inductive Path.Step where
  | member (index : Nat)
  | accessor (index : Nat)
deriving DecidableEq, Repr

abbrev Path := List Path.Step

/-- The site that the path leads to. -/
def Site.descend? (site : Site) : Path → Option Site
  | [] => some site
  | .member index :: rest => do
    (site.child (← site.declaration.members[index]?)).descend? rest
  | .accessor index :: rest => do
    (site.child (← site.declaration.accessors[index]?)).descend? rest

/-- The declaration with the one at the end of the path replaced. -/
def Declaration.replaceAt (declaration : Declaration) (path : Path) (new : Declaration) :
    Except Refusal Declaration :=
  match path with
  | [] => .ok new
  | .member index :: rest =>
    match declaration.members[index]? with
    | some member => do declaration.replaceMember index (← member.replaceAt rest new)
    | none => .error (.indexOutOfRange index declaration.members.length)
  | .accessor index :: rest =>
    match declaration.accessors[index]? with
    | some accessor => do declaration.replaceAccessor index (← accessor.replaceAt rest new)
    | none => .error (.indexOutOfRange index declaration.accessors.length)

end DeclEdit
