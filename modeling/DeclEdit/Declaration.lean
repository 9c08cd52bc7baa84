import DeclEdit.Declaration.Kind
import DeclEdit.Header

/-!
# Declarations

A declaration is a header with a list of members and a list of accessors, of a certain kind. The
kind decides what the two lists may hold; the checks are made where a list is replaced. A declaration
does not know what it stands in; a site does.
-/

namespace DeclEdit

structure Declaration where
  kind : Declaration.Kind
  header : Header
  members : List Declaration
  accessors : List Declaration
deriving Repr

namespace Declaration

mutual

def decideEq : (a b : Declaration) → Decidable (a = b)
  | ⟨kind, header, members, accessors⟩, ⟨kind', header', members', accessors'⟩ =>
    match decEq kind kind', decEq header header', decideListEq members members',
        decideListEq accessors accessors' with
    | isTrue hkind, isTrue hheader, isTrue hmembers, isTrue haccessors =>
      isTrue (by rw [hkind, hheader, hmembers, haccessors])
    | isFalse hkind, _, _, _ => isFalse fun h => hkind (by injection h)
    | _, isFalse hheader, _, _ => isFalse fun h => hheader (by injection h)
    | _, _, isFalse hmembers, _ => isFalse fun h => hmembers (by injection h)
    | _, _, _, isFalse haccessors => isFalse fun h => haccessors (by injection h)

def decideListEq : (as bs : List Declaration) → Decidable (as = bs)
  | [], [] => isTrue rfl
  | [], _ :: _ => isFalse nofun
  | _ :: _, [] => isFalse nofun
  | a :: as, b :: bs =>
    match decideEq a b, decideListEq as bs with
    | isTrue hhead, isTrue htail => isTrue (by rw [hhead, htail])
    | isFalse hhead, _ => isFalse fun h => hhead (by injection h)
    | _, isFalse htail => isFalse fun h => htail (by injection h)

end

instance : DecidableEq Declaration := decideEq

/-- The category of a member of the kind, when a field without `const` is meant by a field. -/
def Kind.category? : Kind → Option Category
  | classType => some .classType
  | structType => some .structType
  | interfaceType => some .interfaceType
  | enumType => some .enumType
  | delegateType => some .delegateType
  | field => some .field
  | constructor => some .constructor
  | destructor => some .destructor
  | method => some .method
  | property => some .property
  | indexer => some .indexer
  | event => some .event
  | eventField => some .eventField
  | operator => some .operator
  | conversionOperator => some .conversionOperator
  | incompleteMember => some .incompleteMember
  | nameSpace => some .nameSpace
  | accessor | localDeclaration | localFunction | parameter | enumMember => none

/-- The category a member is ordered by, if it is something that stands among members. -/
def category? (declaration : Declaration) : Option Category :=
  if declaration.kind = .field ∧ declaration.header.hasKeyword .constKw then some .constField
  else declaration.kind.category?

/-- Whether a container of the first kind may hold a member of the second. -/
def Kind.admits (container member : Kind) : Bool :=
  match container with
  | enumType => decide (member = enumMember)
  | nameSpace => member.isType || decide (member = nameSpace)
  | classType | structType | interfaceType =>
    member.category?.isSome && decide (member ≠ nameSpace)
  | _ => false

def admitMember (container : Kind) (member : Declaration) : Except Refusal Unit :=
  if !container.hasMembers then .error (.unsupportedKind container)
  else if container.admits member.kind then .ok ()
  else .error (.foreignMember member.kind container)

def admitAccessor (owner : Kind) (accessor : Declaration) : Except Refusal Unit :=
  if !owner.hasAccessors then .error (.unsupportedKind owner)
  else if accessor.kind = .accessor then .ok ()
  else .error (.foreignAccessor accessor.kind)

def setModifiers (modifiers : List Modifier) (declaration : Declaration) : Declaration :=
  { declaration with header := { declaration.header with modifiers } }

def setHead (head : Option Token) (declaration : Declaration) : Declaration :=
  { declaration with header := { declaration.header with head } }

def setName (name : Option Token) (declaration : Declaration) : Declaration :=
  { declaration with header := { declaration.header with name } }

def setMembers (members : List Declaration) (declaration : Declaration) :
    Except Refusal Declaration := do
  members.forM (admitMember declaration.kind)
  return { declaration with members }

def setAccessors (accessors : List Declaration) (declaration : Declaration) :
    Except Refusal Declaration := do
  accessors.forM (admitAccessor declaration.kind)
  return { declaration with accessors }

def replaceMember (declaration : Declaration) (index : Nat) (member : Declaration) :
    Except Refusal Declaration :=
  if index < declaration.members.length then do
    admitMember declaration.kind member
    return { declaration with members := declaration.members.set index member }
  else .error (.indexOutOfRange index declaration.members.length)

def replaceAccessor (declaration : Declaration) (index : Nat) (accessor : Declaration) :
    Except Refusal Declaration :=
  if index < declaration.accessors.length then do
    admitAccessor declaration.kind accessor
    return { declaration with accessors := declaration.accessors.set index accessor }
  else .error (.indexOutOfRange index declaration.accessors.length)

/-- Applies a header edit, which only kinds with modifiers take. -/
def editHeader (edit : Header → Except Refusal Header) (declaration : Declaration) :
    Except Refusal Declaration :=
  if declaration.kind.hasModifiers then do
    return { declaration with header := ← edit declaration.header }
  else .error (.unsupportedKind declaration.kind)

end Declaration

/-! ### Sites -/

open Declaration (Kind)

/-- A declaration with those that it stands in, innermost first. With none of them it stands in the
file itself. -/
structure Site where
  declaration : Declaration
  enclosing : List Declaration

namespace Site

def root (declaration : Declaration) : Site := ⟨declaration, []⟩

/-- The site of a declaration that stands in the one at this site. -/
def child (site : Site) (declaration : Declaration) : Site :=
  ⟨declaration, site.declaration :: site.enclosing⟩

def kind (site : Site) : Kind := site.declaration.kind

def parentKind? (site : Site) : Option Kind := site.enclosing.head?.map (·.kind)

/-- Whether the declaration stands directly in a namespace or in the file. -/
def isTopLevel (site : Site) : Bool :=
  site.parentKind? = none || site.parentKind? = some .nameSpace

end Site

end DeclEdit
