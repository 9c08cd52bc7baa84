import DeclEdit.Token

/-!
# Headers

What a declaration starts with: its modifiers, a keyword or type, an interface qualifier and a
name, each of which may be missing. The trivia in front of the first of these tokens is the
indentation and the comment of the whole declaration.
-/

namespace DeclEdit

structure Header where
  modifiers : List Modifier
  head : Option Token
  explicitInterface : Option String
  name : Option Token
deriving DecidableEq, Repr

namespace Header

def keywords (header : Header) : List Keyword := header.modifiers.map (·.keyword)

def hasKeyword (header : Header) (keyword : Keyword) : Bool := decide (keyword ∈ header.keywords)

def nameText? (header : Header) : Option String := header.name.map (·.text)

/-- The head, or the name if there is no head. -/
def firstAfterModifiers? (header : Header) : Option Token := header.head <|> header.name

/-- The trivia in front of the first modifier, else of the head, else of the name. -/
def front (header : Header) : Trivia :=
  match header.modifiers, header.head, header.name with
  | first :: _, _, _ => first.leading
  | [], some head, _ => head.leading
  | [], none, some name => name.leading
  | [], none, none => []

/-- Changes the trivia in front. A header without any of the three tokens has none to change. -/
def mapFront (change : Trivia → Trivia) (header : Header) : Header :=
  match header.modifiers, header.head, header.name with
  | first :: rest, _, _ =>
    { header with modifiers := { first with leading := change first.leading } :: rest }
  | [], some head, _ => { header with head := some { head with leading := change head.leading } }
  | [], none, some name => { header with name := some { name with leading := change name.leading } }
  | [], none, none => header

/-- Gives the trivia of a token that went away to the token that is now in front. -/
def handOver (trivia : Trivia) (header : Header) : Header :=
  if trivia = [] then header else header.mapFront (Trivia.handedOver trivia)

end Header

end DeclEdit
