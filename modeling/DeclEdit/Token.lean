import DeclEdit.Refusal
import DeclEdit.Text.Words
import DeclEdit.Trivia

/-!
# Tokens and modifiers

A token is a word of a declaration's header with the trivia around it: the keyword or type behind
the modifiers, or the declared name. A modifier has a keyword for its word. A list of modifiers is
read from words between blanks; the blanks are not kept, one space follows each word instead.
-/

namespace DeclEdit

structure Token where
  text : String
  leading : Trivia
  trailing : Trivia
deriving DecidableEq, Repr

namespace Token

/-- A token with nothing around it. -/
def plain (text : String) : Token := ⟨text, [], []⟩

def fullText (token : Token) : String :=
  token.leading.text ++ token.text ++ token.trailing.text

def withoutLeading (token : Token) : Token := { token with leading := [] }

end Token

structure Modifier where
  keyword : Keyword
  leading : Trivia
  trailing : Trivia
deriving DecidableEq, Repr

namespace Modifier

/-- A modifier made up by an edit. -/
def elastic (keyword : Keyword) : Modifier := ⟨keyword, [.elasticMarker], [.elasticSpace]⟩

/-- A modifier as written on one line with others. -/
def spaced (keyword : Keyword) : Modifier := ⟨keyword, [], Trivia.space⟩

def fullText (modifier : Modifier) : String :=
  modifier.leading.text ++ modifier.keyword.text ++ modifier.trailing.text

def withoutLeading (modifier : Modifier) : Modifier := { modifier with leading := [] }

def readWord (word : String) : Except Refusal Modifier :=
  match Keyword.ofText? word with
  | some keyword => .ok (spaced keyword)
  | none => .error (.unknownKeyword word)

/-- Fails at the first word that is no keyword. -/
def readWords (text : String) : Except Refusal (List Modifier) :=
  (Text.words text).mapM readWord

end Modifier

end DeclEdit
