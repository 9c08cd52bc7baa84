import DeclEdit.Accessibility.Reading
import DeclEdit.Declaration

/-!
# The rules of accessibility

Which level holds when none is written, which level a declaration has in the end, and which levels
may be written on it. All of them depend on where the declaration stands.
-/

namespace DeclEdit

open Declaration (Kind)

namespace Accessibility

/-- The level of a declaration on which none is written. It is `notApplicable` where none can be
written either. -/
def byDefault (declaration : Declaration) (parentKind? : Option Kind) : Accessibility :=
  let inInterface := parentKind? = some .interfaceType
  let qualified := declaration.header.explicitInterface.isSome
  match declaration.kind with
  | .constructor =>
    if declaration.header.hasKeyword .staticKw then notApplicable else privateAccess
  | .method =>
    if declaration.header.hasKeyword .partialKw ∨ qualified ∨ inInterface then notApplicable
    else privateAccess
  | .property | .indexer | .event =>
    if qualified ∨ inInterface then notApplicable else privateAccess
  | .eventField => if inInterface then notApplicable else privateAccess
  | .field => privateAccess
  | .operator | .conversionOperator | .enumMember | .nameSpace => publicAccess
  | .classType | .structType | .interfaceType | .enumType | .delegateType =>
    if parentKind? = some .classType ∨ parentKind? = some .structType then privateAccess
    else internalAccess
  | .destructor | .accessor | .localDeclaration | .localFunction | .parameter
  | .incompleteMember => notApplicable

/-- What an interface makes public without a word: all its members but constructors, destructors
and those that implement another interface by name. -/
def isInterfaceMember (declaration : Declaration) (parentKind? : Option Kind) : Bool :=
  parentKind? = some .interfaceType && declaration.header.explicitInterface.isNone &&
    decide (declaration.kind ≠ .constructor) && decide (declaration.kind ≠ .destructor)

/-- The level of a declaration within its enclosing ones, when an accessor without a level of its
own has the level `ofOwner`. -/
def resolve (declaration : Declaration) (parentKind? : Option Kind) (ofOwner : Accessibility) :
    Accessibility :=
  let written := declaration.header.accessibility
  if written ≠ notApplicable then written
  else if declaration.kind = .accessor then ofOwner
  else if isInterfaceMember declaration parentKind? then publicAccess
  else byDefault declaration parentKind?

/-- The level that a declaration has, given the declarations around it from the inside out. -/
def effective (declaration : Declaration) : List Declaration → Accessibility
  | [] => resolve declaration none notApplicable
  | owner :: outer => resolve declaration (some owner.kind) (effective owner outer)

end Accessibility

namespace Site

def defaultAccessibility (site : Site) : Accessibility :=
  .byDefault site.declaration site.parentKind?

def accessibility (site : Site) : Accessibility := .effective site.declaration site.enclosing

/-- The kinds on which no level but `notApplicable` is written. -/
def takesNoLevel : Kind → Bool
  | .localDeclaration | .localFunction | .parameter | .destructor => true
  | _ => false

/-- The kinds that take a level only where they have one by default. -/
def levelNeedsDefault : Kind → Bool
  | .constructor | .method | .property | .indexer | .event | .eventField => true
  | _ => false

/-- What a declaration's place and its other modifiers leave of the levels. -/
def admitsHere (site : Site) (level : Accessibility) : Bool :=
  let inheritable := [Keyword.abstractKw, .virtualKw, .overrideKw].any site.declaration.header.hasKeyword
  !(site.isTopLevel && decide (level ≠ .publicAccess) && decide (level ≠ .internalAccess)) &&
    !(site.parentKind? = some .structType && level.mentions .protectedKw) &&
    !(level.mentions .privateKw && inheritable)

/-- An accessor must be harder to reach than what it belongs to. -/
def admitsOnAccessor (site : Site) (level : Accessibility) : Bool :=
  match site.enclosing with
  | [] => false
  | owner :: outer => level.isNarrowerThan (.effective owner outer)

/-- Whether the level may be written on the declaration. An override keeps the level it has, unless
that is to be ignored. -/
def allows (site : Site) (level : Accessibility) (ignoreOverride : Bool) : Bool :=
  let header := site.declaration.header
  if !site.kind.hasModifiers then false
  else if !ignoreOverride && header.hasKeyword .overrideKw then decide (level = header.accessibility)
  else if level = .notApplicable then true
  else if takesNoLevel site.kind then false
  else if site.kind = .operator ∨ site.kind = .conversionOperator then
    decide (level = .publicAccess)
  else if site.kind = .accessor then site.admitsOnAccessor level
  else if levelNeedsDefault site.kind ∧ site.defaultAccessibility = .notApplicable then false
  else site.admitsHere level

end Site

end DeclEdit
