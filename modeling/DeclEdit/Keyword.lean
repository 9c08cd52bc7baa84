/-!
# Modifier keywords

The seventeen keywords, listed in their usual order. Four of them say who may see a declaration.
-/

namespace DeclEdit

inductive Keyword where
  | newKw | publicKw | privateKw | protectedKw | internalKw | constKw | staticKw | virtualKw
  | sealedKw | overrideKw | abstractKw | readonlyKw | externKw | unsafeKw | volatileKw | asyncKw
  | partialKw
deriving DecidableEq, Repr

namespace Keyword

def all : List Keyword :=
  [newKw, publicKw, privateKw, protectedKw, internalKw, constKw, staticKw, virtualKw, sealedKw,
    overrideKw, abstractKw, readonlyKw, externKw, unsafeKw, volatileKw, asyncKw, partialKw]

def text : Keyword → String
  | newKw => "new"
  | publicKw => "public"
  | privateKw => "private"
  | protectedKw => "protected"
  | internalKw => "internal"
  | constKw => "const"
  | staticKw => "static"
  | virtualKw => "virtual"
  | sealedKw => "sealed"
  | overrideKw => "override"
  | abstractKw => "abstract"
  | readonlyKw => "readonly"
  | externKw => "extern"
  | unsafeKw => "unsafe"
  | volatileKw => "volatile"
  | asyncKw => "async"
  | partialKw => "partial"

def ofText? (text : String) : Option Keyword := all.find? (·.text = text)

def isVisibility : Keyword → Bool
  | publicKw | privateKw | protectedKw | internalKw => true
  | _ => false

theorem mem_all (keyword : Keyword) : keyword ∈ all := by
  cases keyword <;> simp [all]

theorem ofText?_text (keyword : Keyword) : ofText? keyword.text = some keyword := by
  cases keyword <;> rfl

theorem text_of_ofText? {text : String} {keyword : Keyword} (h : ofText? text = some keyword) :
    keyword.text = text := by
  simpa using List.find?_some h

end Keyword

end DeclEdit
