/-!
# Kinds of declarations

What each kind is called, the keyword it brings along, and which lists a declaration of the kind
may own.
-/

namespace DeclEdit.Declaration

inductive Kind where
  | classType | structType | interfaceType | enumType | delegateType
  | field | constructor | destructor | method | property | indexer | event | eventField
  | operator | conversionOperator | accessor
  | localDeclaration | localFunction | parameter | incompleteMember | enumMember | nameSpace
deriving DecidableEq, Repr

namespace Kind

def all : List Kind :=
  [classType, structType, interfaceType, enumType, delegateType, field, constructor, destructor,
    method, property, indexer, event, eventField, operator, conversionOperator, accessor,
    localDeclaration, localFunction, parameter, incompleteMember, enumMember, nameSpace]

theorem mem_all (kind : Kind) : kind ∈ all := by
  cases kind <;> simp [all]

def name : Kind → String
  | classType => "class"
  | structType => "struct"
  | interfaceType => "interface"
  | enumType => "enum"
  | delegateType => "delegate"
  | field => "field"
  | constructor => "constructor"
  | destructor => "destructor"
  | method => "method"
  | property => "property"
  | indexer => "indexer"
  | event => "event"
  | eventField => "event field"
  | operator => "operator"
  | conversionOperator => "conversion operator"
  | accessor => "accessor"
  | localDeclaration => "local declaration"
  | localFunction => "local function"
  | parameter => "parameter"
  | incompleteMember => "incomplete member"
  | enumMember => "enum member"
  | nameSpace => "namespace"

/-- The word behind the modifiers, for the kinds where it is always the same. -/
def headWord? : Kind → Option String
  | classType => some "class"
  | structType => some "struct"
  | interfaceType => some "interface"
  | enumType => some "enum"
  | delegateType => some "delegate"
  | event | eventField => some "event"
  | destructor => some "~"
  | nameSpace => some "namespace"
  | _ => none

def hasModifiers : Kind → Bool
  | enumMember | nameSpace => false
  | _ => true

def isType : Kind → Bool
  | classType | structType | interfaceType | enumType | delegateType => true
  | _ => false

def hasMembers : Kind → Bool
  | classType | structType | interfaceType | enumType | nameSpace => true
  | _ => false

def hasAccessors : Kind → Bool
  | property | indexer | event => true
  | _ => false

/-- The kinds whose members are kept in order: an enumeration keeps its members as written. -/
def ordersMembers : Kind → Bool
  | classType | structType | interfaceType | nameSpace => true
  | _ => false

end Kind

end DeclEdit.Declaration
