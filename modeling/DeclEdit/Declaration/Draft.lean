import DeclEdit.Declaration
import DeclEdit.Text.Identifier

/-!
# Drafts

A declaration is drafted step by step and checked once, when it is finished. Later steps replace
what earlier ones of the same sort said, except that members and accessors pile up.
-/

namespace DeclEdit

open Declaration (Kind)

/-- Modifiers are drafted as such or as keywords in a text, which is read only when the draft is
finished. -/
structure Draft where
  kind : Kind
  modifiers : List Modifier
  keywords : Option String
  head : Option Token
  explicitInterface : Option String
  name : Option String
  leading : Option Trivia
  members : List Declaration
  accessors : List Declaration

inductive Draft.Step where
  | modifiers (modifiers : List Modifier)
  | keywords (text : String)
  | head (text : String)
  | headToken (token : Token)
  | noHead
  | name (text : String)
  | explicitInterface (text : String)
  | leading (trivia : Trivia)
  | member (member : Declaration)
  | members (members : List Declaration)
  | accessor (accessor : Declaration)

namespace Draft

/-- An empty draft, but for the word that heads every declaration of the kind. -/
def start (kind : Kind) : Draft where
  kind := kind
  modifiers := []
  keywords := none
  head := kind.headWord?.map Token.plain
  explicitInterface := none
  name := none
  leading := none
  members := []
  accessors := []

def apply (draft : Draft) : Step → Draft
  | .modifiers modifiers => { draft with modifiers, keywords := none }
  | .keywords text => { draft with keywords := some text }
  | .head text => { draft with head := some (.plain text) }
  | .headToken token => { draft with head := some token }
  | .noHead => { draft with head := none }
  | .name text => { draft with name := some text }
  | .explicitInterface text => { draft with explicitInterface := some text }
  | .leading trivia => { draft with leading := some trivia }
  | .member member => { draft with members := draft.members ++ [member] }
  | .members members => { draft with members := draft.members ++ members }
  | .accessor accessor => { draft with accessors := draft.accessors ++ [accessor] }

def run (kind : Kind) (steps : List Step) : Draft := steps.foldl apply (start kind)

/-- A text of keywords hides the modifiers, even if it cannot be read. -/
def readModifiers (draft : Draft) : Except Refusal (List Modifier) :=
  match draft.keywords with
  | some text => Modifier.readWords text
  | none => .ok draft.modifiers

/-- Operators go by symbols or types, everything else by an identifier. -/
def needsIdentifier : Kind → Bool
  | .operator | .conversionOperator => false
  | _ => true

def badName? (draft : Draft) : Option String :=
  draft.name.filter fun name => needsIdentifier draft.kind && !Text.isIdentifier name.toList

def badInterface? (draft : Draft) : Option String :=
  draft.explicitInterface.filter fun text => !Text.isInterfaceName text.toList

def check (draft : Draft) (modifiers : List Modifier) : Except Refusal Unit :=
  if modifiers ≠ [] ∧ draft.kind.hasModifiers = false then .error (.unsupportedKind draft.kind)
  else
    match draft.badName?, draft.badInterface? with
    | some name, _ => .error (.badIdentifier name)
    | none, some text => .error (.badInterfaceName text)
    | none, none => .ok ()

/-- A space keeps the head from the name. The tilde of a destructor stands close to it. -/
def spacedHead? (draft : Draft) : Option Token :=
  draft.head.map fun head =>
    if draft.name.isSome ∧ head.trailing = [] ∧ head.text ≠ "~" then
      { head with trailing := Trivia.space }
    else head

def header (draft : Draft) (modifiers : List Modifier) : Header :=
  let plain : Header := ⟨modifiers, draft.spacedHead?, draft.explicitInterface,
    draft.name.map Token.plain⟩
  match draft.leading with
  | some trivia => plain.mapFront fun _ => trivia
  | none => plain

def finish (draft : Draft) : Except Refusal Declaration := do
  let modifiers ← draft.readModifiers
  draft.check modifiers
  let bare : Declaration := ⟨draft.kind, draft.header modifiers, [], []⟩
  let filled ← bare.setMembers draft.members
  filled.setAccessors draft.accessors

end Draft

end DeclEdit
