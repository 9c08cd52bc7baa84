import DeclEdit.Edit

/-!
# Views

A view is a selection of kinds: one kind alone, or all kinds that own members, accessors or
modifiers. A declaration seen through a view keeps its kind under every edit of its header, so it
can always be seen through the view again. Where modifiers can be edited through the view, the edit
has the same result as that of the declaration itself.
-/

namespace DeclEdit

open Declaration (Kind)

inductive View where
  | ofKind (kind : Kind)
  | memberContainer
  | accessorOwner
  | modifierOwner
deriving DecidableEq, Repr

namespace View

def accepts : View → Kind → Bool
  | ofKind kind, found => decide (found = kind)
  | memberContainer, found => found.ordersMembers
  | accessorOwner, found => found.hasAccessors
  | modifierOwner, found => found.hasModifiers

/-- Whether modifiers can be edited through the view. -/
def editsModifiers : View → Bool
  | ofKind kind => kind.hasModifiers
  | memberContainer => false
  | accessorOwner | modifierOwner => true

/-- A declaration of a kind that the view selects. -/
structure Node (view : View) where
  declaration : Declaration
  accepted : view.accepts declaration.kind = true

def see? (view : View) (declaration : Declaration) : Option view.Node :=
  if accepted : view.accepts declaration.kind = true then some ⟨declaration, accepted⟩ else none

/-- A view through which modifiers are edited selects only kinds that own modifiers. -/
theorem hasModifiers_of_accepts {view : View} {kind : Kind} (hedits : view.editsModifiers = true)
    (haccepts : view.accepts kind = true) : kind.hasModifiers = true := by
  cases view with
  | ofKind selected => simp_all [accepts, editsModifiers]
  | memberContainer => simp [editsModifiers] at hedits
  | accessorOwner => cases kind <;> simp_all [accepts, Kind.hasAccessors, Kind.hasModifiers]
  | modifierOwner => exact haccepts

namespace Node

variable {view : View}

def header (node : view.Node) : Header := node.declaration.header

/-- The header is replaced and the kind stays. -/
def withHeader (node : view.Node) (header : Header) : view.Node :=
  ⟨{ node.declaration with header }, node.accepted⟩

def mapHeader (change : Header → Header) (node : view.Node) : view.Node :=
  node.withHeader (change node.header)

def setModifiers (modifiers : List Modifier) : view.Node → view.Node :=
  mapHeader fun header => { header with modifiers }

/-- Applies a header edit that may be refused. -/
def editHeader (edit : Header → Except Refusal Header) (node : view.Node) :
    Except Refusal view.Node := do
  return node.withHeader (← edit node.header)

def insert (order : Ranking Keyword) (modifier : Modifier) : view.Node → Except Refusal view.Node :=
  editHeader (·.insert order modifier)

def removeAt (index : Nat) : view.Node → Except Refusal view.Node :=
  editHeader fun header =>
    if index < header.modifiers.length then .ok (header.removeAt index)
    else .error (.indexOutOfRange index header.modifiers.length)

/-- The kinds that such a view selects have modifiers, so the declaration takes the edit too. -/
theorem editHeader_declaration (hedits : view.editsModifiers = true)
    (edit : Header → Except Refusal Header) (node : view.Node) :
    node.declaration.editHeader edit = (node.editHeader edit).map (·.declaration) := by
  have hkind := hasModifiers_of_accepts hedits node.accepted
  rw [Declaration.editHeader, if_pos hkind, editHeader, header]
  cases edit node.declaration.header <;> rfl

end Node

/-- The view that every modifier edit needs. -/
def seeModifierOwner (declaration : Declaration) : Except Refusal modifierOwner.Node :=
  match modifierOwner.see? declaration with
  | some node => .ok node
  | none => .error (.unsupportedKind declaration.kind)

/-- An edit of a declaration goes through the view of modifier owners. -/
theorem seeModifierOwner_bind (edit : Header → Except Refusal Header) (declaration : Declaration) :
    (seeModifierOwner declaration >>= fun node => (node.editHeader edit).map (·.declaration)) =
      declaration.editHeader edit := by
  rw [seeModifierOwner, see?]
  by_cases haccepted : modifierOwner.accepts declaration.kind = true
  · rw [dif_pos haccepted]
    exact (Node.editHeader_declaration rfl edit ⟨declaration, haccepted⟩).symm
  · have hkind : ¬declaration.kind.hasModifiers = true := haccepted
    rw [dif_neg haccepted, Declaration.editHeader, if_neg hkind]
    rfl

section Agreement

variable {view : View} (hedits : view.editsModifiers = true) (node : view.Node)
  (order : Ranking Keyword) (enclosing : List Declaration)

include hedits

theorem Node.insert_declaration (modifier : Modifier) :
    (ModifierEdit.insertModifier modifier).apply order ⟨node.declaration, enclosing⟩ =
      (node.insert order modifier).map (·.declaration) :=
  editHeader_declaration hedits (·.insert order modifier) node

theorem Node.removeAt_declaration (index : Nat) :
    (ModifierEdit.removeAt index).apply order ⟨node.declaration, enclosing⟩ =
      (node.removeAt index).map (·.declaration) := by
  rw [ModifierEdit.apply, removeAt, editHeader_declaration hedits]

/-- An edit of the declaration that is never refused is made through the view by `mapHeader`. -/
theorem Node.mapHeader_declaration (change : Header → Header) :
    node.declaration.editHeader (fun header => .ok (change header)) =
      .ok (node.mapHeader change).declaration :=
  editHeader_declaration hedits (fun header => .ok (change header)) node

end Agreement

theorem Node.setModifiers_declaration {view : View} (node : view.Node) (modifiers : List Modifier) :
    (node.setModifiers modifiers).declaration = node.declaration.setModifiers modifiers := rfl

end View

/-- What there is to ask about a declaration of a certain kind. -/
inductive Feature where
  | name
  | explicitInterface
  | operator
  | conversion
  | accessorWord
  | flag (keyword : Keyword)
deriving DecidableEq, Repr

/-- A word that may be missing, or whether a keyword is there. -/
inductive Feature.Answer where
  | word (text : Option String)
  | flag (present : Bool)
deriving DecidableEq, Repr

/-- An operator's symbol stands where other declarations have their name, and the words `implicit`
and `get` stand where others have their type. -/
def Feature.ask (declaration : Declaration) : Feature → Feature.Answer
  | name | operator => .word declaration.header.nameText?
  | explicitInterface => .word declaration.header.explicitInterface
  | conversion | accessorWord => .word (declaration.header.head.map (·.text))
  | flag keyword => .flag (declaration.header.hasKeyword keyword)

def Declaration.Kind.features : Kind → List Feature
  | classType =>
    [.name, .flag .staticKw, .flag .abstractKw, .flag .sealedKw, .flag .partialKw]
  | structType => [.name, .flag .readonlyKw, .flag .partialKw]
  | interfaceType => [.name, .flag .partialKw]
  | field =>
    [.name, .flag .constKw, .flag .staticKw, .flag .readonlyKw, .flag .volatileKw]
  | eventField | constructor => [.name, .flag .staticKw]
  | method =>
    [.name, .flag .staticKw, .flag .abstractKw, .flag .virtualKw, .flag .overrideKw,
      .flag .partialKw, .flag .asyncKw, .explicitInterface]
  | operator => [.operator]
  | conversionOperator => [.conversion]
  | property =>
    [.name, .flag .staticKw, .flag .abstractKw, .flag .virtualKw, .flag .overrideKw,
      .explicitInterface]
  | indexer => [.explicitInterface]
  | event => [.name, .explicitInterface]
  | accessor => [.accessorWord]
  | localDeclaration => [.name, .flag .constKw]
  | localFunction => [.name, .flag .staticKw, .flag .asyncKw]
  | incompleteMember => []
  | enumType | delegateType | nameSpace | enumMember | destructor | parameter => [.name]

end DeclEdit
