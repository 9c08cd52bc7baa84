/-!
# Categories of members

Members are put in order by category. The categories are the kinds of declarations that stand in a
member list, except that constant fields form a category of their own.
-/

namespace DeclEdit

inductive Category where
  | constField | field | constructor | destructor | delegateType | event | eventField | property
  | indexer | method | conversionOperator | operator | enumType | interfaceType | structType
  | classType | nameSpace | incompleteMember
deriving DecidableEq, Repr

namespace Category

def all : List Category :=
  [constField, field, constructor, destructor, delegateType, event, eventField, property, indexer,
    method, conversionOperator, operator, enumType, interfaceType, structType, classType, nameSpace,
    incompleteMember]

theorem mem_all (category : Category) : category ∈ all := by
  cases category <;> simp [all]

def name : Category → String
  | constField => "ConstField"
  | field => "Field"
  | constructor => "Constructor"
  | destructor => "Destructor"
  | delegateType => "Delegate"
  | event => "Event"
  | eventField => "EventField"
  | property => "Property"
  | indexer => "Indexer"
  | method => "Method"
  | conversionOperator => "ConversionOperator"
  | operator => "Operator"
  | enumType => "Enum"
  | interfaceType => "Interface"
  | structType => "Struct"
  | classType => "Class"
  | nameSpace => "Namespace"
  | incompleteMember => "IncompleteMember"

/-- The place of members of the category in the usual order. -/
def defaultRank : Category → Nat
  | constField => 0
  | field => 1
  | constructor => 2
  | destructor => 3
  | delegateType => 4
  | event => 5
  | eventField => 6
  | property => 7
  | indexer => 8
  | method => 9
  | conversionOperator => 10
  | operator => 11
  | enumType => 12
  | interfaceType => 13
  | structType => 14
  | classType => 15
  | nameSpace => 16
  | incompleteMember => 17

/-- Whether members of the category have a name to go by. -/
def isNamed : Category → Bool
  | indexer | destructor | operator | conversionOperator | incompleteMember => false
  | _ => true

end Category

end DeclEdit
